import GridOps.Proofs.Device.Accounting
import GridOps.Proofs.WordPiece.TokenCount
import Mathlib.Data.List.Chain

/-!
Which batches a tokenizer takes, and how many tokens they have.
-/

namespace GridOps

/-! ## Options -/

namespace TokenizerOptions

/-- The options that a tokenizer can be made with. -/
structure Valid (o : TokenizerOptions) : Prop where
  sequenceLength : 1 ≤ o.sequenceLength ∧ o.sequenceLength ≤ max32
  stride : 1 ≤ o.stride ∧ o.stride ≤ o.sequenceLength
  maxStrings : o.maxStrings < max32
  maxBytes : o.maxBytes ≤ max32
  maxWordLength : 1 ≤ o.maxWordLength
  cells : o.maxRows * o.sequenceLength ≤ Device.maxBytes

theorem check_ok_iff {o : TokenizerOptions} : o.check = .ok () ↔ o.Valid := by
  constructor
  · intro h
    unfold check at h
    repeat'
      split at h
      · cases h
    constructor <;> omega
  · rintro ⟨hlength, hstride, hstrings, hbytes, hword, hcells⟩
    unfold check
    rw [if_neg (by omega), if_neg (by omega), if_neg (by omega), if_neg (by omega),
      if_neg (by omega)]

end TokenizerOptions

/-! ## Batches -/

namespace Batch

variable {b : Batch}

/-- Where string `i` starts.  Offsets that the batch does not have count as zero. -/
def start (b : Batch) (i : Nat) : Nat := (b.offsets[i]?.getD 0).toNat

theorem length_string_le (b : Batch) (i : Nat) :
    (b.string i).length ≤ b.start (i + 1) - b.start i := by
  rw [string, Array.length_toList, Array.size_extract]
  exact Nat.sub_le_sub_right (Nat.min_le_left ..) _

theorem decreases_eq_false_iff {offsets : List UInt32} :
    decreases offsets = false ↔ offsets.IsChain (· ≤ ·) := by
  induction offsets with
  | nil => simp [decreases]
  | cons a rest ih =>
    cases rest with
    | nil => simp [decreases]
    | cons b rest =>
      rw [decreases, Bool.or_eq_false_iff, ih, List.isChain_cons_cons, decide_eq_false_iff_not,
        UInt32.not_lt]

/-- The offsets in use ascend exactly if those of each string do. -/
theorem isChain_take_iff (h : b.count < b.offsets.size) :
    (b.offsets.toList.take (b.count + 1)).IsChain (· ≤ ·) ↔
      ∀ i < b.count, b.start i ≤ b.start (i + 1) := by
  have hlength : (b.offsets.toList.take (b.count + 1)).length = b.count + 1 := by
    rw [List.length_take, Array.length_toList]
    omega
  rw [List.isChain_iff_getElem]
  constructor
  · intro hchain i hi
    have hle := hchain i (by omega)
    rw [List.getElem_take, List.getElem_take, UInt32.le_iff_toNat_le] at hle
    simpa [start, show i < b.offsets.size by omega, show i + 1 < b.offsets.size by omega] using hle
  · intro hstart i hi
    have hle := hstart i (by omega)
    rw [List.getElem_take, List.getElem_take, UInt32.le_iff_toNat_le]
    simpa [start, show i < b.offsets.size by omega, show i + 1 < b.offsets.size by omega] using hle

theorem head?_take (b : Batch) :
    ((b.offsets.toList.take (b.count + 1)).head?.getD 0).toNat = b.start 0 := by
  rw [List.head?_eq_getElem?, List.getElem?_take_of_lt (Nat.succ_pos _), Array.getElem?_toList,
    start]

theorem getLast?_take (h : b.count < b.offsets.size) :
    ((b.offsets.toList.take (b.count + 1)).getLast?.getD 0).toNat = b.start b.count := by
  have hlength : (b.offsets.toList.take (b.count + 1)).length = b.count + 1 := by
    rw [List.length_take, Array.length_toList]
    omega
  rw [List.getLast?_eq_getElem?, hlength, Nat.add_sub_cancel,
    List.getElem?_take_of_lt (Nat.lt_succ_self _), Array.getElem?_toList, start]

end Batch

namespace Tokenizer

variable {t : Tokenizer} {b : Batch}

/-- The batch is within the limits of the tokenizer, and its offsets ascend within its bytes. -/
structure Accepts (t : Tokenizer) (b : Batch) : Prop where
  strings : b.count ≤ t.maxStrings
  offsets : b.count < b.offsets.size
  ascending : ∀ i < b.count, b.start i ≤ b.start (i + 1)
  inside : b.start b.count ≤ b.bytes.size
  bytes : b.start b.count - b.start 0 ≤ t.maxBytes

theorem Accepts.count_lt (hb : t.Accepts b) (ht : t.Valid) : b.count + 1 < UInt32.size :=
  Nat.lt_sub_iff_add_lt.mp (Nat.lt_of_le_of_lt hb.strings ht.maxStrings)

/-- The check takes exactly these batches, and calls any other an invalid argument. -/
theorem check_cases (t : Tokenizer) (b : Batch) :
    (t.check b = .ok () ∧ t.Accepts b) ∨
      ∃ e, t.check b = .error e ∧ e.kind = .invalidArgument ∧ ¬t.Accepts b := by
  unfold check
  dsimp only
  by_cases hstrings : t.maxStrings < b.count
  · rw [if_pos hstrings]
    exact Or.inr ⟨_, rfl, rfl, fun h => Nat.not_lt_of_le h.strings hstrings⟩
  by_cases hoffsets : b.offsets.size ≤ b.count
  · rw [if_neg hstrings, if_pos hoffsets]
    exact Or.inr ⟨_, rfl, rfl, fun h => Nat.not_lt_of_le hoffsets h.offsets⟩
  have hsize := Nat.lt_of_not_le hoffsets
  have hchain := Batch.isChain_take_iff hsize
  rw [if_neg hstrings, if_neg hoffsets, Batch.head?_take, Batch.getLast?_take hsize,
    ← Batch.decreases_eq_false_iff] at *
  by_cases hdecreases : Batch.decreases (b.offsets.toList.take (b.count + 1))
  · rw [if_pos hdecreases]
    refine Or.inr ⟨_, rfl, rfl, fun h => ?_⟩
    rw [hchain.mpr h.ascending] at hdecreases
    cases hdecreases
  by_cases hinside : b.bytes.size < b.start b.count
  · rw [if_neg hdecreases, if_pos hinside]
    exact Or.inr ⟨_, rfl, rfl, fun h => Nat.not_lt_of_le h.inside hinside⟩
  by_cases hbytes : t.maxBytes < b.start b.count - b.start 0
  · rw [if_neg hdecreases, if_neg hinside, if_pos hbytes]
    exact Or.inr ⟨_, rfl, rfl, fun h => Nat.not_lt_of_le h.bytes hbytes⟩
  rw [if_neg hdecreases, if_neg hinside, if_neg hbytes]
  exact Or.inl ⟨rfl, ⟨Nat.le_of_not_lt hstrings, hsize, hchain.mp (by simpa using hdecreases),
    Nat.le_of_not_lt hinside, Nat.le_of_not_lt hbytes⟩⟩

theorem check_ok_iff : t.check b = .ok () ↔ t.Accepts b := by
  rcases t.check_cases b with ⟨hcheck, haccepts⟩ | ⟨e, hcheck, -, hnot⟩
  · exact iff_of_true hcheck haccepts
  · refine iff_of_false (fun h => ?_) hnot
    rw [hcheck] at h
    cases h

/-! ## Tokens of a batch -/

/-- The tokens of each string of a batch. -/
def tokens (t : Tokenizer) (b : Batch) : List (List UInt32) :=
  (List.range b.count).map fun i => t.stringTokens (b.string i)

@[simp] theorem length_tokens (t : Tokenizer) (b : Batch) : (t.tokens b).length = b.count := by
  simp [tokens]

theorem getElem?_tokens {i : Nat} (h : i < b.count) :
    (t.tokens b)[i]? = some (t.stringTokens (b.string i)) := by
  simp [tokens, h]

theorem length_flatten_range_le (t : Tokenizer) {k : Nat}
    (h : ∀ i < k, b.start i ≤ b.start (i + 1)) :
    b.start 0 + ((List.range k).map fun i => t.stringTokens (b.string i)).flatten.length ≤
      b.start k := by
  induction k with
  | zero => simp
  | succ k ih =>
    have hrest := ih fun i hi => h i (Nat.lt_succ_of_lt hi)
    have htokens := Nat.le_trans (t.length_stringTokens_le (b.string k)) (b.length_string_le k)
    have hle := h k (Nat.lt_succ_self k)
    rw [List.range_succ, List.map_append, List.flatten_append, List.length_append]
    simp only [List.map_singleton, List.flatten_singleton]
    omega

/-- A batch has no more tokens than its strings have bytes. -/
theorem Accepts.length_flatten_tokens_le (h : t.Accepts b) :
    (t.tokens b).flatten.length ≤ b.start b.count - b.start 0 :=
  Nat.le_sub_of_add_le' (t.length_flatten_range_le h.ascending)

/-- The number of tokens is one that 32 bits hold. -/
theorem Accepts.length_flatten_tokens_lt (h : t.Accepts b) (ht : t.Valid) :
    (t.tokens b).flatten.length < UInt32.size := by
  have hle := h.length_flatten_tokens_le
  have hbytes := h.bytes
  have hmax := ht.maxBytes
  have hsize : UInt32.size = 4294967296 := rfl
  unfold TokenizerOptions.max32 at hmax
  omega

end Tokenizer
end GridOps
