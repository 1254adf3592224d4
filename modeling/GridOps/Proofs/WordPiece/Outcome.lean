import GridOps.Proofs.WordPiece.Tokenize

/-!
When tokenizing succeeds.

With enough memory a batch is tokenized exactly if the tokenizer accepts it, and else it is an
invalid argument.  Overflows and faults of kernels do not occur: what is counted are tokens, and a
string has no more of them than bytes.
-/

namespace GridOps
namespace Tokenizer

variable {t : Tokenizer} {b : Batch} {d : Device}

/-- The most bytes that are taken at a time while a batch is tokenized.  The counts are given back
before the tokens are written. -/
def peakBytes (t : Tokenizer) (b : Batch) : Nat :=
  let word := Word.bytes UInt32
  let offsets := (b.count + 1) * word
  if b.count = 0 then word
  else DeviceM.counterBytes +
    max (b.count * word + (offsets + PrefixSum.default.scanBytes word b.count))
      (offsets + (t.tokens b).flatten.length * word)

theorem words_le_maxHostBytes {items : Nat} (h : items ≤ UInt32.size) :
    items * Word.bytes UInt32 ≤ maxHostBytes :=
  Nat.le_trans (Nat.mul_le_mul_right _ h) (by decide)

/-- Turning `n` counts into offsets, while the counts are on the device. -/
theorem offsetsOfCounts_needs {α : Type} {n : Nat} (hn : n < UInt32.size) (a : α) :
    (do
      Plan.allocate n (Word.bytes UInt32)
      Plan.hold (n * Word.bytes UInt32) do
        PrefixSum.default.offsetsPlan (Word.bytes UInt32) n
        return a : Plan α).Needs
      (n * Word.bytes UInt32 + ((n + 1) * Word.bytes UInt32 +
        PrefixSum.default.scanBytes (Word.bytes UInt32) n)) a := by
  have hsuits : PrefixSum.default.Suits n :=
    PrefixSum.default_suits (Nat.le_trans (Nat.le_of_lt hn) (by decide))
  have hchunks : PrefixSum.default.chunks n ≤
      (UInt32.size - 1) * PrefixSum.default.block.toNat :=
    calc PrefixSum.default.chunks n
        ≤ UInt32.size - 1 := Nat.le_trans (PrefixSum.chunks_le hsuits) (by omega)
      _ ≤ (UInt32.size - 1) * PrefixSum.default.block.toNat :=
        Nat.le_mul_of_pos_right _ (by decide)
  have hoffsets := PrefixSum.offsetsPlan_needs hsuits hchunks (words_le_maxHostBytes hn)
  exact (Plan.allocate_needs (words_le_maxHostBytes (Nat.le_of_lt hn))).hold
    (.of_eq (hoffsets.bind (.pure a)) (Nat.max_zero _))

theorem tokenOffsetsPlan_needs (ht : t.Valid) (hb : t.Accepts b) :
    (t.tokenOffsetsPlan b).Needs (b.count * Word.bytes UInt32 + ((b.count + 1) * Word.bytes UInt32 +
      PrefixSum.default.scanBytes (Word.bytes UInt32) b.count))
      (starts UInt32 (t.tokens b)).toArray :=
  offsetsOfCounts_needs (Nat.lt_of_succ_lt (hb.count_lt ht)) _

theorem tokenizePlan_needs (ht : t.Valid) (hblock : t.block ≠ 0) (hb : t.Accepts b) :
    (t.tokenizePlan b).Needs (t.peakBytes b) (.ofStrings (t.tokens b)) := by
  have hcount := hb.count_lt ht
  have htokens := hb.length_flatten_tokens_lt ht
  refine .of_eq ((Plan.ofExcept_needs (check_ok_iff.mpr hb)).bind ?_) (Nat.zero_max _)
  unfold peakBytes
  by_cases hnone : b.count = 0
  · rw [if_pos hnone, if_pos hnone]
    exact .of_eq ((Plan.allocate_needs (by decide)).bind (.pure _)) (Nat.max_zero _)
  rw [if_neg hnone, if_neg hnone]
  have hgrid : b.count ≤ (UInt32.size - 1) * t.block.toNat :=
    Nat.le_trans (by omega) (Nat.le_mul_of_pos_right _ (Launch.toNat_pos hblock))
  have hwrite : (Plan.allocate (t.tokens b).flatten.length (Word.bytes UInt32) >>= fun _ =>
      Plan.hold ((t.tokens b).flatten.length * Word.bytes UInt32)
        (pure (TokenIds.ofStrings (t.tokens b)))).Needs
      ((t.tokens b).flatten.length * Word.bytes UInt32) (.ofStrings (t.tokens b)) :=
    .of_eq ((Plan.allocate_needs (words_le_maxHostBytes (Nat.le_of_lt htokens))).hold
      (f := fun _ => pure (TokenIds.ofStrings (t.tokens b))) (.pure _)) (Nat.add_zero _)
  have hkept : (b.count + 1) * Word.bytes UInt32 ≤ b.count * Word.bytes UInt32 +
      ((b.count + 1) * Word.bytes UInt32 +
        PrefixSum.default.scanBytes (Word.bytes UInt32) b.count) := by omega
  exact .of_eq ((Plan.launch_needs hgrid).bind
    (Plan.withCounter_needs ((tokenOffsetsPlan_needs ht hb).keep hkept hwrite))) (Nat.zero_max _)

/-- With enough memory, an accepted batch is tokenized. -/
theorem tokenize_isOk (ht : t.Valid) (hblock : t.block ≠ 0) (hb : t.Accepts b) (hd : d.RunsGrid)
    (hfree : t.peakBytes b ≤ d.available) : ∃ r d', t.tokenize b d = .ok r d' := by
  have hends := (tokenize_follows ht (fun _ => hblock) hd).trans
    ((tokenizePlan_needs ht hblock hb).ok hfree)
  obtain ⟨r, d', h, -⟩ := DeviceM.ending_ok hends
  exact ⟨r, d', h⟩

/-- With too little memory, an accepted batch ends for want of it. -/
theorem tokenize_outOfMemory (ht : t.Valid) (hblock : t.block ≠ 0) (hb : t.Accepts b)
    (hd : d.RunsGrid) (hfree : d.available < t.peakBytes b) :
    ∃ e d', t.tokenize b d = .error e d' ∧ e.kind = .outOfMemory := by
  have hends := (tokenize_follows ht (fun _ => hblock) hd).trans
    ((tokenizePlan_needs ht hblock hb).error hfree)
  exact DeviceM.ending_error hends

/-- A batch that is not accepted is refused before anything is taken. -/
theorem tokenize_of_not_accepts (hb : ¬t.Accepts b) :
    ∃ e, t.tokenize b d = .error e d ∧ e.kind = .invalidArgument := by
  rcases t.check_cases b with ⟨-, haccepts⟩ | ⟨e, hcheck, hkind, -⟩
  · exact absurd haccepts hb
  · exact ⟨e, DeviceM.bind_of_error (DeviceM.ofExcept_of_error hcheck d), hkind⟩

/-- What a batch takes is known before it is tokenized. -/
theorem Accepts.peakBytes_le (hb : t.Accepts b) (ht : t.Valid) :
    t.peakBytes b ≤ 20 + 12 * b.count + 4 * (b.start b.count - b.start 0) := by
  have htokens := hb.length_flatten_tokens_le
  have hchunks := PrefixSum.chunks_le (hb.suits ht)
  have hword : Word.bytes UInt32 = 4 := rfl
  have hcounter : DeviceM.counterBytes = 8 := rfl
  unfold peakBytes PrefixSum.scanBytes
  simp only [hword, hcounter]
  split <;> omega

/-- With enough memory, a batch is tokenized exactly if it is accepted, and else it is an invalid
argument.  Every other failure is for want of memory. -/
theorem tokenize_outcome (ht : t.toTokenizerOptions.check = .ok ()) (hblock : t.block ≠ 0)
    (hd : d.RunsGrid) :
    (t.peakBytes b ≤ d.available → ((∃ r d', t.tokenize b d = .ok r d') ↔ t.Accepts b)) ∧
      (¬t.Accepts b → ∃ e, t.tokenize b d = .error e d ∧ e.kind = .invalidArgument) ∧
      (∀ e d', t.tokenize b d = .error e d' → e.kind = .invalidArgument ∨
        e.kind = .outOfMemory ∧ d.available < t.peakBytes b) ∧
      (t.Accepts b → t.peakBytes b ≤ 20 + 12 * b.count + 4 * (b.start b.count - b.start 0)) ∧
      ∀ bytes, (t.stringTokens bytes).length ≤ bytes.length := by
  have ht := TokenizerOptions.check_ok_iff.mp ht
  refine ⟨fun hfree => ⟨?_, fun hb => tokenize_isOk ht hblock hb hd hfree⟩,
    tokenize_of_not_accepts, ?_, fun hb => hb.peakBytes_le ht, t.length_stringTokens_le⟩
  · rintro ⟨r, d', h⟩
    exact (tokenize_ok ht hd h).1
  · intro e d' h
    by_cases hb : t.Accepts b
    · rcases Nat.lt_or_ge d.available (t.peakBytes b) with hfree | hfree
      · obtain ⟨e', d'', h', hkind⟩ := tokenize_outOfMemory ht hblock hb hd hfree
        rw [h] at h'
        cases h'
        exact Or.inr ⟨hkind, hfree⟩
      · obtain ⟨r, d'', h'⟩ := tokenize_isOk ht hblock hb hd hfree
        rw [h] at h'
        cases h'
    · obtain ⟨e', h', hkind⟩ := tokenize_of_not_accepts (d := d) hb
      rw [h] at h'
      cases h'
      exact Or.inl hkind

/-- Three strings with three tokens fit into 48 bytes.  With the offsets in the opposite order they
are refused. -/
theorem tokenize_outcome_sample :
    (∃ r d, sampleTokenizer.tokenize sampleBatch (.backwards 48) = .ok r d) ∧
      ∃ e, sampleTokenizer.tokenize { sampleBatch with offsets := #[6, 4, 4, 1] } (.backwards 48) =
        .error e (.backwards 48) ∧ e.kind = .invalidArgument := by
  have hd := (Device.backwards_runsAll 48).runsGrid
  have houtcome := fun b => tokenize_outcome (t := sampleTokenizer) (b := b) (by decide)
    (by decide) hd
  refine ⟨((houtcome sampleBatch).1 (by decide +kernel)).mpr (check_ok_iff.mp (by decide)),
    (houtcome _).2.1 fun hb => ?_⟩
  exact absurd (hb.ascending 0 (by decide)) (by decide)

end Tokenizer
end GridOps
