import GridOps.Proofs.WordPiece.Accepted
import GridOps.Proofs.WordPiece.TokenIds

/-!
What tokenizing a batch gives.

The counts of tokens, the offsets that the prefix sum makes of them, and the places that the last
kernel writes agree on every string, in whatever order the threads run: the answer is the tokens of
each string alone, end to end (`tokenize_follows`).  No number on the way is too large for its type,
because a batch has no more tokens than bytes.
-/

namespace GridOps
namespace Tokenizer

variable {t : Tokenizer} {b : Batch} {l : Launch} {d : Device}

/-! ## Kernels -/

/-- The counting launch. -/
theorem launch_count (hlt : (t.tokens b).flatten.length < UInt32.size) (hl : l.Covers b.count)
    (hd : d.RunsGrid) :
    DeviceM.launch "count_tokens" l (t.countKernel b) (0, Array.replicate b.count 0) d =
      .ok (0, (lengths UInt32 (t.tokens b)).toArray) { d with launches := d.launches + 1 } := by
  let writer : Kernel (Array UInt32) := fun th =>
    if th.global < b.count then
      scatter th.global (UInt32.ofNat (t.stringTokens (b.string th.global)).length)
    else pure ()
  have hkernel : ∀ th, t.countKernel b th = onSecond (writer th) := by
    intro th
    unfold countKernel writer
    dsimp only
    by_cases hi : th.global < b.count
    · have hlength := length_le_of_mem (List.mem_of_getElem? (t.getElem?_tokens hi))
      rw [if_pos hi, if_pos hi, if_neg]
      exact Nat.not_lt_of_le (Nat.le_sub_one_of_lt (Nat.lt_of_le_of_lt hlength hlt))
    · rw [if_neg hi, if_neg hi]
      rfl
  have hsize : (t.tokens b).length = b.count := t.length_tokens b
  refine DeviceM.launch_onSecond hkernel (DeviceM.launch_lengths "count_tokens" _ (hsize ▸ hl) hd
    (fun th xs hxs => ?_) (fun th hi => ?_) ?_) 0
  · obtain ⟨hi, -⟩ := List.getElem?_eq_some_iff.mp hxs
    rw [hsize] at hi
    rw [t.getElem?_tokens hi] at hxs
    cases hxs
    exact if_pos hi
  · exact if_neg (Nat.not_lt_of_le (hsize ▸ hi))
  · rw [Array.size_replicate, hsize]

/-- The writing launch. -/
theorem launch_write (hlt : (t.tokens b).flatten.length < UInt32.size) (hl : l.Covers b.count)
    (hd : d.RunsGrid) :
    DeviceM.launch "write_token_ids" l (t.writeKernel b (starts UInt32 (t.tokens b)).toArray)
      (Array.replicate (t.tokens b).flatten.length 0) d =
      .ok (t.tokens b).flatten.toArray { d with launches := d.launches + 1 } := by
  have hsize : (t.tokens b).length = b.count := t.length_tokens b
  refine DeviceM.launch_tiles "write_token_ids" (t.tokens b) (hsize ▸ hl) hd (fun th xs hxs => ?_)
    (fun th hi => if_neg (Nat.not_lt_of_le (hsize ▸ hi))) Array.size_replicate
  obtain ⟨hi, -⟩ := List.getElem?_eq_some_iff.mp hxs
  have hstart := toNat_getElem?_starts hlt (Nat.le_of_lt hi)
  rw [hsize] at hi
  rw [t.getElem?_tokens hi] at hxs
  show (if th.global < b.count then _ else _) = _
  rw [if_pos hi, Option.some.inj hxs, hstart]

/-! ## The course of tokenizing -/

/-- The plan of `tokenOffsets`. -/
def tokenOffsetsPlan (t : Tokenizer) (b : Batch) : Plan (Array UInt32) := do
  Plan.allocate b.count (Word.bytes UInt32)
  Plan.hold (b.count * Word.bytes UInt32) do
    PrefixSum.default.offsetsPlan (Word.bytes UInt32) b.count
    return (starts UInt32 (t.tokens b)).toArray

def tokenizePlan (t : Tokenizer) (b : Batch) : Plan TokenIds := do
  Plan.ofExcept TokenizerError.kind (t.check b)
  if b.count = 0 then
    Plan.allocate 1 (Word.bytes UInt32)
    return .ofStrings (t.tokens b)
  else
    Plan.launch b.count t.block
    Plan.withCounter do
      let _ ← t.tokenOffsetsPlan b
      Plan.hold ((b.count + 1) * Word.bytes UInt32) do
        let total := (t.tokens b).flatten.length
        Plan.allocate total (Word.bytes UInt32)
        Plan.hold (total * Word.bytes UInt32) (return .ofStrings (t.tokens b))

/-- A number of strings that 32 bits hold suits the prefix sum. -/
theorem Accepts.suits (hb : t.Accepts b) (ht : t.Valid) : PrefixSum.default.Suits b.count := by
  have hcount := Nat.le_of_lt (Nat.lt_of_succ_lt (hb.count_lt ht))
  exact PrefixSum.default_suits (Nat.le_trans hcount (by decide))

/-- A failure of the device is one of the same kind for the tokenizer. -/
theorem follows_device {α β : Type} {view : α → β} {m : DeviceM DeviceError α} {plan : Plan β}
    (h : DeviceM.Follows DeviceError.kind view m plan d) :
    DeviceM.Follows TokenizerError.kind view (DeviceM.mapError .device m) plan d :=
  h.mapError fun _ => rfl

theorem tokenOffsets_follows (ht : t.Valid) (hb : t.Accepts b) (hl : l.Covers b.count)
    (hd : d.RunsGrid) :
    DeviceM.Follows TokenizerError.kind id (t.tokenOffsets b l) (t.tokenOffsetsPlan b) d := by
  have hlt := hb.length_flatten_tokens_lt ht
  refine (follows_device (DeviceM.allocate_follows b.count (Word.bytes UInt32) d)).take
    (DeviceM.allocate_balanced _ _).mapError fun _ d₁ _ hb₁ => .withBytes _ ?_
  have hd₁ := hd.became hb₁
  have hcount := launch_count hlt hl hd₁
  refine .ok_bind (DeviceM.mapError_of_ok hcount) (.launched d₁ _) ?_
  have hd₂ : ({ d₁ with launches := d₁.launches + 1 } : Device).RunsGrid :=
    hd₁.became (.launched d₁ _)
  have hoffsets := PrefixSum.offsets_lengths_follows (β := UInt32) (t.tokens b)
    (by rw [length_tokens]; exact hb.suits ht) (by decide) hd₂ hlt
  rw [length_tokens] at hoffsets
  exact follows_device hoffsets

theorem tokenOffsets_ok {offsets : Array UInt32} {d' : Device} (ht : t.Valid) (hb : t.Accepts b)
    (hl : l.Covers b.count) (hd : d.RunsGrid) (h : t.tokenOffsets b l d = .ok offsets d') :
    offsets = (starts UInt32 (t.tokens b)).toArray := by
  have hplan := (tokenOffsets_follows ht hb hl hd).symm.trans (DeviceM.ending_of_ok h)
  obtain ⟨_, -, hplan⟩ := Plan.bind_ok hplan
  obtain ⟨_, -, hplan⟩ := Plan.bind_ok hplan
  exact (Except.ok.inj hplan).symm

theorem countKernel_size {th : Thread} {s s' : UInt64 × Array UInt32} {u : Unit}
    (h : t.countKernel b th s = .ok u s') : s'.2.size = s.2.size := by
  unfold countKernel at h
  dsimp only at h
  split at h
  · split at h
    · cases h
      rfl
    · obtain ⟨counts, hwrite, rfl⟩ := onSecond_ok h
      exact scatter_size hwrite
  · cases h
    rfl

/-- The offsets stay on the device. -/
theorem tokenOffsets_balanced (t : Tokenizer) (b : Batch) (l : Launch) :
    DeviceM.Balanced (t.tokenOffsets b l) fun _ => (b.count + 1) * Word.bytes UInt32 := by
  refine (DeviceM.allocate_balanced _ _).mapError.hold fun _ =>
    (DeviceM.launch_balanced ..).mapError.bind_of fun d s d' h => ?_
  have hsize : s.2.size = b.count := Device.launch_keeps
    (P := fun s : UInt64 × Array UInt32 => s.2.size = b.count)
    (fun th s s' hs h => (countKernel_size h).trans hs) Array.size_replicate (DeviceM.mapError_ok h)
  obtain ⟨overflows, counts⟩ := s
  dsimp only at hsize ⊢
  split
  · exact .fail _
  · rw [← hsize]
    exact (PrefixSum.offsets_balanced _ counts).mapError

/-- A tokenizer with threads in its blocks ends as planned. -/
theorem tokenize_follows (ht : t.Valid) (hblock : b.count ≠ 0 → t.block ≠ 0) (hd : d.RunsGrid) :
    DeviceM.Follows TokenizerError.kind id (t.tokenize b) (t.tokenizePlan b) d := by
  refine (DeviceM.Follows.ofExcept (t.check b)).bind (.ofExcept _) fun _ d₁ hcheck hb₁ => ?_
  have hb := check_ok_iff.mp (DeviceM.ofExcept_ok hcheck)
  have hd₁ := hd.became hb₁
  by_cases hcount : b.count = 0
  · rw [if_pos hcount, if_pos hcount]
    have hnone : t.tokens b = [] := List.eq_nil_of_length_eq_zero (by simpa using hcount)
    rw [hnone]
    exact (follows_device (DeviceM.allocate_follows 1 (Word.bytes UInt32) d₁)).bind_of
      fun _ _ _ => rfl
  rw [if_neg hcount, if_neg hcount]
  have hstrings := (hb.suits ht).grid
  refine (follows_device (DeviceM.forLen_follows (hblock hcount) hstrings d₁)).bind
    (DeviceM.Balanced.ofExcept _).mapError fun l d₂ hl hb₂ => ?_
  have hl := Launch.forLen_ofNat_covers hstrings (DeviceM.ofExcept_ok (DeviceM.mapError_ok hl))
  have hd₂ := hd₁.became hb₂
  refine (follows_device (DeviceM.reserveItems_follows 1 DeviceM.counterBytes d₂)).take
    (DeviceM.reserveItems_balanced _ _).mapError fun _ d₃ _ hb₃ => .withBytes _ ?_
  have hd₃ := hd₂.became hb₃
  refine (tokenOffsets_follows ht hb hl hd₃).take (tokenOffsets_balanced t b l)
    fun offsets d₄ hoffsets hb₄ => .keepingBytes _ ?_
  have hd₄ := hd₃.became hb₄
  have hlt := hb.length_flatten_tokens_lt ht
  have htotal : ((starts UInt32 (t.tokens b)).toArray[b.count]?.getD 0).toNat =
      (t.tokens b).flatten.length := by
    rw [← startOf_length, length_tokens]
    exact toNat_getElem?_starts hlt (Nat.le_of_eq (t.length_tokens b).symm)
  obtain rfl := tokenOffsets_ok ht hb hl hd₃ hoffsets
  dsimp only
  rw [htotal]
  refine (follows_device (DeviceM.allocate_follows _ (Word.bytes UInt32) d₄)).take
    (DeviceM.allocate_balanced _ _).mapError fun _ d₅ _ hb₅ => .keepingBytes _ ?_
  have hwrite := launch_write hlt hl (hd₄.became hb₅)
  exact .of_ok (DeviceM.bind_of_ok (DeviceM.mapError_of_ok hwrite))

/-! ## The answer -/

section Answer

variable {r : TokenIds} {d' : Device}

/-- Only a grid of blocks with threads is launched. -/
theorem block_ne_zero (hcount : b.count ≠ 0) (h : t.tokenize b d = .ok r d') : t.block ≠ 0 := by
  intro hblock
  obtain ⟨_, _, -, h⟩ := DeviceM.bind_ok h
  rw [if_neg hcount] at h
  obtain ⟨l, _, hl, -⟩ := DeviceM.bind_ok h
  have hl := DeviceM.ofExcept_ok (DeviceM.mapError_ok hl)
  rw [Launch.forLen, if_pos hblock] at hl
  cases hl

theorem tokenize_ok (ht : t.Valid) (hd : d.RunsGrid) (h : t.tokenize b d = .ok r d') :
    t.Accepts b ∧ r = .ofStrings (t.tokens b) := by
  have hfollows := tokenize_follows ht (fun hcount => block_ne_zero hcount h) hd
  have hplan := hfollows.symm.trans (DeviceM.ending_of_ok h)
  obtain ⟨_, hcheck, hplan⟩ := Plan.bind_ok hplan
  refine ⟨check_ok_iff.mp (Plan.ofExcept_ok hcheck), ?_⟩
  by_cases hcount : b.count = 0
  · rw [if_pos hcount] at hplan
    obtain ⟨_, -, hplan⟩ := Plan.bind_ok hplan
    exact (Except.ok.inj hplan).symm
  · rw [if_neg hcount] at hplan
    obtain ⟨_, -, hplan⟩ := Plan.bind_ok hplan
    have hplan := Plan.withCounter_ok hplan
    obtain ⟨_, -, hplan⟩ := Plan.bind_ok hplan
    obtain ⟨_, -, hplan⟩ := Plan.bind_ok hplan
    exact (Except.ok.inj hplan).symm

theorem string?_tokens (ht : t.Valid) (hb : t.Accepts b) (i : Nat) :
    (TokenIds.ofStrings (t.tokens b)).string? i =
      if i < b.count then some (t.stringTokens (b.string i)) else none := by
  rw [TokenIds.string?_ofStrings (hb.length_flatten_tokens_lt ht)]
  by_cases hi : i < b.count
  · rw [if_pos hi, getElem?_tokens hi]
  · rw [if_neg hi, List.getElem?_eq_none]
    rw [length_tokens]
    exact Nat.le_of_not_lt hi

end Answer

/-- Whenever a batch is tokenized, the answer holds the tokens of each of its strings, one string
after the other, and where each starts.  The tokens of a string are those of its words, and a
string has the same tokens in every batch. -/
theorem tokenize_tokens {r : TokenIds} {d' : Device} (ht : t.toTokenizerOptions.check = .ok ())
    (hd : d.RunsGrid) (h : t.tokenize b d = .ok r d') :
    r.offsets[0]? = some 0 ∧ r.offsets.size = b.count + 1 ∧
      (∀ i < b.count, ∃ first last, r.offsets[i]? = some first ∧ r.offsets[i + 1]? = some last ∧
        last.toNat = first.toNat + (t.stringTokens (b.string i)).length) ∧
      r.ids.toList = (List.range b.count).flatMap (fun i => t.stringTokens (b.string i)) ∧
      (∀ i, r.string? i = if i < b.count then some (t.stringTokens (b.string i)) else none) ∧
      (∀ bytes, t.stringTokens bytes = (t.normalizer.words (Utf8.decodeLossy bytes)).flatMap
        fun word => t.vocabulary.tokenizeWord t.maxWordLength word) ∧
      ∀ (b₁ : Batch) (d₁ d₂ : Device) (r₁ : TokenIds) (i k : Nat), d₁.RunsGrid →
        t.tokenize b₁ d₁ = .ok r₁ d₂ → i < b.count → k < b₁.count → b₁.string k = b.string i →
        r₁.string? k = r.string? i := by
  have ht := TokenizerOptions.check_ok_iff.mp ht
  obtain ⟨hb, rfl⟩ := tokenize_ok ht hd h
  have hlt := hb.length_flatten_tokens_lt ht
  have hcount := t.length_tokens b
  refine ⟨?_, ?_, fun i hi => ?_, ?_, string?_tokens ht hb, t.stringTokens_eq,
    fun b₁ d₁ d₂ r₁ i k hd₁ h₁ hi hk hsame => ?_⟩
  · obtain ⟨first, hfirst, hzero⟩ := TokenIds.getElem?_offsets hlt (Nat.zero_le _)
    rw [startOf_zero] at hzero
    rw [hfirst, UInt32.toNat.inj (hzero.trans UInt32.toNat_zero.symm)]
  · simp [TokenIds.ofStrings]
  · obtain ⟨first, hfirst, hstart⟩ := TokenIds.getElem?_offsets hlt (hcount ▸ Nat.le_of_lt hi)
    obtain ⟨last, hlast, hend⟩ := TokenIds.getElem?_offsets hlt (hcount ▸ hi)
    refine ⟨first, last, hfirst, hlast, ?_⟩
    rw [hend, hstart, startOf_succ (t.getElem?_tokens hi)]
  · rw [TokenIds.ofStrings, tokens, List.flatMap_def]
  · obtain ⟨hb₁, rfl⟩ := tokenize_ok ht hd₁ h₁
    rw [string?_tokens ht hb₁, string?_tokens ht hb, if_pos hi, if_pos hk, hsame]

/-! ### A small tokenizer -/

/-- The one piece is the letter a, with token 7. -/
def sampleVocabulary : Vocabulary where
  outerA := 1
  outerB := 0
  bins := #[⟨1, 0⟩]
  table := #[97 * 65536 + 7]
  unknownId := 1
  classId := 2
  separatorId := 3

def sampleTokenizer : Tokenizer :=
  ⟨{ TokenizerOptions.default with block := 2 }, sampleVocabulary⟩

/-- Between a byte that is not used and the end: two words, no word, and one with an ill-formed
byte before it. -/
def sampleBatch : Batch := ⟨#[0x78, 0x61, 0x20, 0x62, 0xFF, 0x41], #[1, 4, 4, 6], 3⟩

theorem tokenize_tokens_backwards :
    ∃ (r : TokenIds) (d : Device),
      sampleTokenizer.tokenize sampleBatch (.backwards 1000) = .ok r d ∧
      r.ids.toList = [7, 1, 7] ∧ r.string? 0 = some [7, 1] ∧ r.string? 1 = some [] ∧
      r.string? 3 = none := by
  obtain ⟨r, d, h, -⟩ := DeviceM.exists_of_returns (fun _ => true)
    (sampleTokenizer.tokenize sampleBatch (.backwards 1000)) (by decide +kernel)
  obtain ⟨-, -, -, hids, hstrings, -⟩ :=
    tokenize_tokens (by decide) (Device.backwards_runsAll 1000).runsGrid h
  exact ⟨r, d, h, hids.trans (by decide +kernel), (hstrings 0).trans (by decide +kernel),
    (hstrings 1).trans (by decide +kernel), (hstrings 3).trans (by decide +kernel)⟩

end Tokenizer
end GridOps
