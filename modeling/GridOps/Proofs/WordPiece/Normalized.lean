import GridOps.Proofs.Text.Utf8
import GridOps.Proofs.WordPiece.Outcome

/-!
Tokenizing strings that are normalized already.

The tokens of a string are those of its words, and a normalized text keeps its words when it is
normalized again.  So a batch of normalized strings has the token ids of the batch of the strings
themselves, and takes as much memory (`tokenize_normalized`).
-/

namespace GridOps

/-- The encoding of the normalized text of a string. -/
def Normalizer.normalizeBytes (n : Normalizer) (bytes : List UInt8) : List UInt8 :=
  (n.appendTo (Utf8.decodeLossy bytes) "").toUTF8.data.toList

namespace Tokenizer

variable {t : Tokenizer} {b b₁ : Batch}

theorem stringTokens_normalizeBytes (t : Tokenizer) (bytes : List UInt8) :
    t.stringTokens (t.normalizer.normalizeBytes bytes) = t.stringTokens bytes := by
  have htext : Utf8.decodeLossy (t.normalizer.normalizeBytes bytes) =
      t.normalizer.normalize (Utf8.decodeLossy bytes) :=
    (Utf8.decodeLossy_toUTF8 _).trans (t.normalizer.toList_appendTo _ "")
  rw [stringTokens, htext, Normalizer.words_normalize]
  rfl

/-- The batch `b₁` has the strings of `b`, each of them normalized. -/
structure Normalizes (t : Tokenizer) (b b₁ : Batch) : Prop where
  count : b₁.count = b.count
  string : ∀ i < b.count, b₁.string i = t.normalizer.normalizeBytes (b.string i)

theorem Normalizes.tokens_eq (h : t.Normalizes b b₁) : t.tokens b₁ = t.tokens b := by
  rw [tokens, tokens, h.count]
  refine List.map_congr_left fun i hi => ?_
  rw [h.string i (List.mem_range.mp hi), stringTokens_normalizeBytes]

theorem Normalizes.peakBytes_eq (h : t.Normalizes b b₁) : t.peakBytes b₁ = t.peakBytes b := by
  rw [peakBytes, peakBytes, h.count, h.tokens_eq]

/-- Normalizing a normalized text leaves its words as they are.  So a string and its normalized form
have the same tokens, and two batches, one of strings and one of their normalized forms, have the
same token ids: whenever both are tokenized, and if both are accepted, then both are tokenized on
every device with the memory for one. -/
theorem tokenize_normalized :
    (∀ (n : Normalizer) (text : List Char),
      CharClass.words (n.appendTo (n.appendTo text "").toList "").toList =
        CharClass.words (n.appendTo text "").toList) ∧
    (∀ (t : Tokenizer) (bytes : List UInt8),
      t.stringTokens (t.normalizer.normalizeBytes bytes) = t.stringTokens bytes) ∧
    ∀ (t : Tokenizer) (b b₁ : Batch), t.toTokenizerOptions.check = .ok () → t.Normalizes b b₁ →
      (∀ (d d₁ d' d₁' : Device) (r r₁ : TokenIds), d.RunsGrid → d₁.RunsGrid →
        t.tokenize b d = .ok r d' → t.tokenize b₁ d₁ = .ok r₁ d₁' → r₁ = r) ∧
      (t.block ≠ 0 → t.Accepts b → t.Accepts b₁ → ∃ r : TokenIds, ∀ d : Device, d.RunsGrid →
        t.peakBytes b ≤ d.available →
        (∃ d', t.tokenize b d = .ok r d') ∧ ∃ d', t.tokenize b₁ d = .ok r d') := by
  refine ⟨fun n text => ?_, stringTokens_normalizeBytes, fun t b b₁ ht hnormalizes => ?_⟩
  · rw [Normalizer.toList_appendTo, Normalizer.toList_appendTo]
    exact n.words_normalize text
  have ht := TokenizerOptions.check_ok_iff.mp ht
  refine ⟨fun d d₁ d' d₁' r r₁ hd hd₁ h h₁ => ?_, fun hblock hb hb₁ => ?_⟩
  · rw [(tokenize_ok ht hd h).2, (tokenize_ok ht hd₁ h₁).2, hnormalizes.tokens_eq]
  · refine ⟨.ofStrings (t.tokens b), fun d hd hfree => ⟨?_, ?_⟩⟩
    · obtain ⟨r, d', h⟩ := tokenize_isOk ht hblock hb hd hfree
      exact ⟨d', (tokenize_ok ht hd h).2 ▸ h⟩
    · obtain ⟨r, d', h⟩ := tokenize_isOk ht hblock hb₁ hd (hnormalizes.peakBytes_eq ▸ hfree)
      exact ⟨d', hnormalizes.tokens_eq ▸ (tokenize_ok ht hd h).2 ▸ h⟩

/-- The sample batch without its ill-formed byte and with a small letter in its place. -/
def normalizedSampleBatch : Batch := ⟨#[0x61, 0x20, 0x62, 0x61], #[0, 3, 3, 4], 3⟩

theorem tokenize_normalized_sample :
    ∃ r : TokenIds,
      (∃ d', sampleTokenizer.tokenize sampleBatch (.backwards 1000) = .ok r d') ∧
      ∃ d', sampleTokenizer.tokenize normalizedSampleBatch (.backwards 1000) = .ok r d' := by
  have hnormalizes : sampleTokenizer.Normalizes sampleBatch normalizedSampleBatch :=
    ⟨rfl, by decide +kernel⟩
  obtain ⟨-, hsame⟩ := tokenize_normalized.2.2 sampleTokenizer _ _ (by decide) hnormalizes
  obtain ⟨r, hr⟩ := hsame (by decide) (check_ok_iff.mp (by decide)) (check_ok_iff.mp (by decide))
  exact ⟨r, hr _ (Device.backwards_runsAll 1000).runsGrid (by decide +kernel)⟩

end Tokenizer
end GridOps
