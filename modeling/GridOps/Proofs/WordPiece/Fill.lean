import GridOps.Proofs.WordPiece.Rows
import GridOps.Proofs.WordPiece.TokenIds

/-!
Building a tensor.

The thread of a string counts the rows of the string, and later writes them behind the rows of the
strings before it.  The rows of a batch tile the tensor, and a place to which nothing is written is
zero from the start, so a tensor that is built is the one with the rows of each string, one string
after the other (`ofTokens_ok`), in whatever order the threads run.
-/

namespace GridOps
namespace Tensor

variable {o : TokenizerOptions} {strings : List (List UInt32)} {rows : List Row} {row : Row}
  {target t : Tensor} {b : Buffer} {k : Nat} {l : Launch} {d d' : Device}

/-! ## One buffer of a tensor -/

section Buffers

@[simp] theorem rows_set (t : Tensor) (b : Buffer) (values : Array UInt32) :
    (t.set b values).rows = t.rows := by cases b <;> rfl

@[simp] theorem width_set (t : Tensor) (b : Buffer) (values : Array UInt32) :
    (t.set b values).width = t.width := by cases b <;> rfl

@[simp] theorem set_set (t : Tensor) (b : Buffer) (values values' : Array UInt32) :
    (t.set b values).set b values' = t.set b values' := by cases b <;> rfl

@[simp] theorem get_set_self (t : Tensor) (b : Buffer) (values : Array UInt32) :
    (t.set b values).get b = values := by cases b <;> rfl

theorem get_set_ne {b' : Buffer} (h : b' ≠ b) (t : Tensor) (values : Array UInt32) :
    (t.set b values).get b' = t.get b' := by
  cases b <;> cases b' <;> first | rfl | exact absurd rfl h

theorem eq_of_get {t' : Tensor} (hrows : t.rows = t'.rows) (hwidth : t.width = t'.width)
    (h : ∀ b, t.get b = t'.get b) : t = t' := by
  cases t
  cases t'
  obtain rfl : _ = _ := hrows
  obtain rfl : _ = _ := hwidth
  obtain rfl : _ = _ := h .ids
  obtain rfl : _ = _ := h .mask
  obtain rfl : _ = _ := h .metadata
  rfl

end Buffers

/-- As large as `target`. -/
structure Shaped (target t : Tensor) : Prop where
  rows : t.rows = target.rows
  width : t.width = target.width
  size : ∀ b, (t.get b).size = (target.get b).size

/-- The cell `c` is as in `target`. -/
def Right (target : Tensor) (c : Buffer × Nat) (t : Tensor) : Prop :=
  (t.get c.1)[c.2]? = (target.get c.1)[c.2]?

/-- What writes to a buffer as it should be makes these cells of the tensor right. -/
theorem on_settles {own : Nat → Prop} {m : EStateM Fault (Array UInt32) Unit}
    (h : Writes (target.get b).toList own m) :
    Settles (Shaped target) (Right target) (fun c => c.1 = b ∧ own c.2) (on b m) where
  run := fun t ht => by
    obtain ⟨values, hm, hsize, hright, hkeep⟩ := h.run (t.get b) (ht.size b)
    refine ⟨t.set b values, ?_, ⟨?_, ?_, fun b' => ?_⟩, ?_, ?_⟩
    · unfold on
      dsimp only
      rw [hm]
      exact congrArg (EStateM.Result.ok ()) (set_set t b #[] values)
    · rw [rows_set, ht.rows]
    · rw [width_set, ht.width]
    · by_cases hb : b' = b
      · subst hb
        rw [get_set_self]
        exact hsize
      · rw [get_set_ne hb, ht.size]
    · rintro ⟨b', j⟩ ⟨rfl, hj⟩
      rw [Right, get_set_self, hright j hj, Array.getElem?_toList]
    · rintro ⟨b', j⟩ hc
      by_cases hb : b' = b
      · subst hb
        have hc : (t.get b')[j]? = (target.get b').toList[j]? :=
          Eq.trans hc Array.getElem?_toList.symm
        rw [Right, get_set_self, hkeep j hc, Array.getElem?_toList]
      · rwa [Right, get_set_ne hb]

/-! ## Writing rows -/

/-- The cells to which a row is written if it is row `k`. -/
def Row.At (o : TokenizerOptions) (row : Row) (k : Nat) (c : Buffer × Nat) : Prop :=
  k * columns o c.1 ≤ c.2 ∧ c.2 < k * columns o c.1 + (row.written o c.1).length

theorem written_writes (h : rows[k]? = some row) (b : Buffer) :
    Writes ((ofRows o rows).get b).toList (fun j => row.At o k (b, j))
      (scatterFrom (row.written o b) (k * columns o b)) := by
  rw [get_ofRows]
  exact scatterFrom_writes fun j hj => by
    rw [getElem?_contents h (Nat.lt_of_lt_of_le hj (row.length_written_le o b)),
      Row.getElem?_cells_written hj]

theorem fillRow_settles (h : rows[k]? = some row) :
    Settles (Shaped (ofRows o rows)) (Right (ofRows o rows)) (row.At o k)
      (fillRow o row.tokens row.string row.index k) := by
  refine Settles.mono ((on_settles (written_writes h .ids)).andThen
    ((on_settles (written_writes h .mask)).andThen (on_settles (written_writes h .metadata)))) ?_
  rintro ⟨b, j⟩ hc
  cases b <;> simp [hc]

/-- The cells that the thread of string `i` writes. -/
def CellOf (o : TokenizerOptions) (strings : List (List UInt32)) (i : Nat) (c : Buffer × Nat) :
    Prop :=
  ∃ tokens r, strings[i]? = some tokens ∧ r < o.rowsFor tokens.length ∧
    Row.At o ⟨i, tokens, r⟩ (startOf (rowsOf o strings) i + r) c

theorem fillKernel_settles (htokens : strings.flatten.length < UInt32.size)
    (hrows : (rowsOf o strings).flatten.length < UInt32.size) {th : Thread}
    (hi : th.global < strings.length) :
    Settles (Shaped (ofStrings o strings)) (Right (ofStrings o strings))
      (CellOf o strings th.global)
      (fillKernel o (.ofStrings strings) (starts UInt32 (rowsOf o strings)).toArray th) := by
  have hxs : strings[th.global]? = some strings[th.global] := List.getElem?_eq_getElem hi
  have hcount := startOf_succ (getElem?_rowsOf (o := o) hxs)
  rw [length_stringRows] at hcount
  unfold fillKernel
  dsimp only
  rw [if_pos (by rwa [TokenIds.count_ofStrings]), TokenIds.span_ofStrings htokens hi,
    span_starts hrows (by rwa [length_rowsOf])]
  dsimp only
  rw [TokenIds.extract_ofStrings hxs, hcount, Nat.add_sub_cancel_left]
  refine (Settles.forM _ fun r hr =>
    fillRow_settles (getElem?_flatten_rowsOf hxs (List.mem_range.mp hr))).mono ?_
  rintro c ⟨tokens, r, htokens, hr, hc⟩
  rw [hxs] at htokens
  cases htokens
  exact ⟨r, List.mem_range.mpr hr, hc⟩

/-- Every cell is one that the thread of a string writes, or stays zero. -/
theorem cellOf_or_zero {j : Nat} (hj : j < (rowsOf o strings).flatten.length * columns o b) :
    (∃ i < strings.length, CellOf o strings i (b, j)) ∨
      (contents o (rowsOf o strings).flatten b)[j]? = some 0 := by
  have hpos : 0 < columns o b := Nat.pos_of_mul_pos_left (Nat.zero_lt_of_lt hj)
  obtain ⟨i, tokens, r, htokens, hr, hk⟩ := exists_string ((Nat.div_lt_iff_lt_mul hpos).mpr hj)
  have hrow := getElem?_flatten_rowsOf htokens hr
  obtain ⟨hi, -⟩ := List.getElem?_eq_some_iff.mp htokens
  obtain ⟨c, hc, rfl⟩ : ∃ c < columns o b,
      j = (startOf (rowsOf o strings) i + r) * columns o b + c :=
    ⟨j % columns o b, Nat.mod_lt j hpos, by rw [← hk, Nat.div_add_mod']⟩
  rcases Nat.lt_or_ge c ((Row.mk i tokens r).written o b).length with h | h
  · exact .inl ⟨i, hi, tokens, r, htokens, hr, Nat.le_add_right _ c, Nat.add_lt_add_left h _⟩
  · right
    rw [getElem?_contents hrow hc]
    exact Row.getElem?_cells_rest h hc

/-- A tensor to which nothing is written yet. -/
def blank (o : TokenizerOptions) (rows : Nat) : Tensor :=
  ⟨rows, o.sequenceLength, Array.replicate (rows * o.sequenceLength) 0,
    Array.replicate (rows * o.sequenceLength) 0, Array.replicate (rows * metadataColumns) 0⟩

theorem get_blank (o : TokenizerOptions) (rows : Nat) (b : Buffer) :
    (blank o rows).get b = Array.replicate (rows * columns o b) 0 := by cases b <;> rfl

theorem blank_shaped (o : TokenizerOptions) (rows : List Row) :
    Shaped (ofRows o rows) (blank o rows.length) where
  rows := rfl
  width := rfl
  size := fun b => by
    rw [get_blank, get_ofRows, Array.size_replicate, List.size_toArray, length_contents]

/-- The writing launch. -/
theorem launch_fill (htokens : strings.flatten.length < UInt32.size)
    (hrows : (rowsOf o strings).flatten.length < UInt32.size) (hl : l.Covers strings.length)
    (hd : d.RunsGrid) :
    DeviceM.launch "fill_tensor" l
      (fillKernel o (.ofStrings strings) (starts UInt32 (rowsOf o strings)).toArray)
      (blank o (rowsOf o strings).flatten.length) d =
      .ok (ofStrings o strings) { d with launches := d.launches + 1 } := by
  obtain ⟨filled, hlaunch, hfilled, hright, hkeep⟩ := DeviceM.launch_settles "fill_tensor" hl hd
    (fun th hi => fillKernel_settles htokens hrows hi)
    (fun th hi => if_neg (Nat.not_lt_of_le (TokenIds.count_ofStrings strings ▸ hi)))
    (blank_shaped o (rowsOf o strings).flatten)
  rw [hlaunch, eq_of_get hfilled.rows hfilled.width fun b => ?_]
  refine Array.ext_getElem? fun j => ?_
  rcases Nat.lt_or_ge j ((rowsOf o strings).flatten.length * columns o b) with hj | hj
  · rcases cellOf_or_zero hj with ⟨i, hi, hc⟩ | hzero
    · exact hright i hi (b, j) hc
    · refine hkeep (b, j) ?_
      show ((blank o _).get b)[j]? = ((ofRows o _).get b)[j]?
      rw [get_blank, Array.getElem?_replicate, if_pos hj, get_ofRows, List.getElem?_toArray, hzero]
  · have hsize : ((ofStrings o strings).get b).size ≤ j := by
      rwa [ofStrings, get_ofRows, List.size_toArray, length_contents]
    rw [Array.getElem?_eq_none hsize]
    exact Array.getElem?_eq_none (hfilled.size b ▸ hsize)

/-! ## Counting rows -/

/-- No string has as many rows as 32 bits count. -/
theorem length_stringRows_lt (ho : o.Strides) (htokens : strings.flatten.length < UInt32.size) :
    ∀ rows ∈ rowsOf o strings, rows.length < Word.size UInt32 := by
  intro rows hrows
  obtain ⟨i, hi⟩ := List.mem_iff_getElem?.mp hrows
  obtain ⟨tokens, htokens', rfl⟩ := exists_of_mem_rowsOf hi
  have hlength := length_le_of_mem (List.mem_of_getElem? htokens')
  have hle := TokenizerOptions.rowsFor_le ho tokens.length
  have hsize : Word.size UInt32 = UInt32.size := rfl
  have hone : 1 < UInt32.size := by decide
  rw [length_stringRows]
  omega

/-- The counting launch. -/
theorem launch_count (htokens : strings.flatten.length < UInt32.size) (hl : l.Covers strings.length)
    (hd : d.RunsGrid) :
    DeviceM.launch "count_tensor_rows" l (countKernel o (.ofStrings strings))
      (Array.replicate strings.length 0) d =
      .ok (lengths UInt32 (rowsOf o strings)).toArray { d with launches := d.launches + 1 } := by
  have hsize : (rowsOf o strings).length = strings.length := length_rowsOf o strings
  refine DeviceM.launch_lengths "count_tensor_rows" _ (hsize ▸ hl) hd (fun th rows hth => ?_)
    (fun th hi => if_neg ?_) (by rw [Array.size_replicate, hsize])
  · obtain ⟨tokens, hxs, rfl⟩ := exists_of_mem_rowsOf hth
    obtain ⟨hi, -⟩ := List.getElem?_eq_some_iff.mp hxs
    show (if th.global < (TokenIds.ofStrings strings).count then
      scatter th.global (UInt32.ofNat (o.rowsFor ((span (TokenIds.ofStrings strings).offsets
        th.global).2 - (span (TokenIds.ofStrings strings).offsets th.global).1))) else pure ()) = _
    rw [if_pos (by rwa [TokenIds.count_ofStrings]), TokenIds.span_ofStrings htokens hi,
      startOf_succ hxs, Nat.add_sub_cancel_left, length_stringRows]
    rfl
  · rw [TokenIds.count_ofStrings]
    exact Nat.not_lt_of_le (hsize ▸ hi)

/-- Strings for which the counts of their rows were allocated suit the prefix sum. -/
theorem suits_of_allocate {u : Unit}
    (h : DeviceM.allocate strings.length (Word.bytes UInt32) d = .ok u d') :
    PrefixSum.default.Suits strings.length :=
  PrefixSum.default_suits
    (Nat.le_trans (Nat.le_mul_of_pos_right _ (by decide)) (DeviceM.allocate_le h))

/-- On a device that runs each thread once, rows are placed only if 32 bits have their number, and
the rows of each string start where those of the strings before it end. -/
theorem rowOffsets_ok {offsets : Array UInt32} (ho : o.Strides)
    (htokens : strings.flatten.length < UInt32.size) (hl : l.Covers strings.length) (hd : d.RunsAll)
    (h : rowOffsets o (.ofStrings strings) l d = .ok offsets d') :
    (rowsOf o strings).flatten.length < UInt32.size ∧
      offsets = (starts UInt32 (rowsOf o strings)).toArray ∧ d'.RunsAll := by
  obtain ⟨_, d₁, halloc, h⟩ := DeviceM.bind_ok h
  obtain ⟨d₂, h, hrelease⟩ := DeviceM.withBytes_ok h
  obtain ⟨counts, d₃, hcount, h⟩ := DeviceM.bind_ok h
  have hd₁ := hd.became ((DeviceM.allocate_balanced _ _).ok halloc)
  have hd₃ := hd₁.became ((DeviceM.launch_balanced ..).ok hcount)
  have hd₂ := hd₃.became ((PrefixSum.offsets_balanced _ _).ok h)
  rw [TokenIds.count_ofStrings] at halloc hcount
  rw [launch_count htokens hl hd₁.runsGrid] at hcount
  cases hcount
  have hsuits : PrefixSum.default.Suits (rowsOf o strings).length :=
    (length_rowsOf o strings).symm ▸ suits_of_allocate halloc
  have hrows := PrefixSum.length_lt_of_offsets_lengths hsuits hd₃
    (length_stringRows_lt ho htokens) h
  refine ⟨hrows, PrefixSum.offsets_lengths_ok hsuits hd₃.runsGrid hrows h, ?_⟩
  subst hrelease
  exact hd₂

/-! ## The tensor -/

theorem holding_ok {α : Type} {items : Nat} {body : DeviceM TokenizerError α} {a : α}
    (h : holding items body d = .ok a d') :
    ∃ d₁, d.Became d₁ (items * Word.bytes UInt32) ∧ body d₁ = .ok a d' := by
  obtain ⟨_, d₁, halloc, h⟩ := DeviceM.bind_ok h
  exact ⟨d₁, (DeviceM.allocate_balanced _ _).ok (DeviceM.mapError_ok halloc),
    DeviceM.keepingBytes_ok h⟩

/-- A tensor that is built has the rows of each string, one string after the other, and as many
places as a word counts at most. -/
theorem ofTokens_ok (ho : o.Strides) (htokens : strings.flatten.length < UInt32.size)
    (hd : d.RunsAll) (h : ofTokens o (.ofStrings strings) d = .ok t d') :
    (rowsOf o strings).flatten.length < UInt32.size ∧
      (rowsOf o strings).flatten.length * o.sequenceLength ≤ Device.maxBytes ∧
      t = ofStrings o strings := by
  obtain ⟨l, d₁, hl, h⟩ := DeviceM.bind_ok h
  obtain ⟨offsets, d₂, hoffsets, h⟩ := DeviceM.bind_ok h
  obtain ⟨d₃, h, -⟩ := DeviceM.withBytes_ok h
  have hoffsets := DeviceM.mapError_ok hoffsets
  obtain ⟨_, _, halloc, -⟩ := DeviceM.bind_ok hoffsets
  have hd₁ := hd.became ((DeviceM.Balanced.ofExcept _).mapError.ok hl)
  rw [TokenIds.count_ofStrings] at halloc hl
  have hstrings := (suits_of_allocate halloc).grid
  have hl := Launch.forLen_ofNat_covers hstrings (DeviceM.ofExcept_ok (DeviceM.mapError_ok hl))
  obtain ⟨hrows, rfl, hd₂⟩ := rowOffsets_ok ho htokens hl hd₁ hoffsets
  refine ⟨hrows, ?_⟩
  have htotal : ((starts UInt32 (rowsOf o strings)).toArray[strings.length]?.getD 0).toNat =
      (rowsOf o strings).flatten.length := by
    rw [← startOf_length, length_rowsOf]
    exact toNat_getElem?_starts hrows (Nat.le_of_eq (length_rowsOf o strings).symm)
  rw [TokenIds.count_ofStrings, htotal] at h
  dsimp only at h
  split at h
  · cases h
  · split at h
    · cases h
    · rename_i hcells
      obtain ⟨d₄, hb₄, h⟩ := holding_ok h
      obtain ⟨d₅, hb₅, h⟩ := holding_ok h
      obtain ⟨d₆, hb₆, h⟩ := holding_ok h
      have hd₆ := ((hd₂.became hb₄).became hb₅).became hb₆
      have hfill := (launch_fill htokens hrows hl hd₆.runsGrid).symm.trans (DeviceM.mapError_ok h)
      cases hfill
      exact ⟨Nat.le_of_not_lt hcells, rfl⟩

end Tensor
end GridOps
