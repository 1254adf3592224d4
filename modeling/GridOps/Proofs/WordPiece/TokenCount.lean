import GridOps.Proofs.Text.Normalize
import GridOps.Proofs.Text.Utf8
import GridOps.Proofs.WordPiece.Segment
import GridOps.WordPiece.Tokenizer

/-!
A string has no more tokens than bytes.

Every step gives at most one thing for one: decoding a character for a byte, normalization a
character that is no white space for a character, and segmentation a token for a character of a
word.  The bytes that a batch may have are therefore a bound on its tokens too.
-/

namespace GridOps

namespace Tokenizer

variable (t : Tokenizer)

/-- The tokens of a string are those of its words, each as if it were alone. -/
theorem stringTokens_eq (bytes : List UInt8) :
    t.stringTokens bytes = (t.normalizer.words (Utf8.decodeLossy bytes)).flatMap
      (t.vocabulary.tokenizeWord t.maxWordLength) :=
  Vocabulary.emitWords_eq ..

theorem length_stringTokens_le (bytes : List UInt8) :
    (t.stringTokens bytes).length ≤ bytes.length := by
  have htokens := t.vocabulary.length_flatMap_tokenizeWord_le t.maxWordLength
    (t.normalizer.words (Utf8.decodeLossy bytes))
    fun word hword => (CharClass.isWord_of_mem_words hword).ne_nil
  calc (t.stringTokens bytes).length
      ≤ (t.normalizer.words (Utf8.decodeLossy bytes)).flatten.length := by
        rw [stringTokens_eq]
        exact htokens
    _ ≤ Normalizer.inked (t.normalizer.normalize (Utf8.decodeLossy bytes)) := by
        rw [Normalizer.words, CharClass.flatten_words, ← List.countP_eq_length_filter]
        exact Normalizer.countP_solid_le _
    _ ≤ (Utf8.decodeLossy bytes).length := Normalizer.inked_normalize_le ..
    _ ≤ bytes.length := Utf8.length_decodeLossy_le bytes

end Tokenizer
end GridOps
