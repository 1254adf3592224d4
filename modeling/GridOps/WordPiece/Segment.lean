import GridOps.Vocabulary.Basic

/-!
Splitting a word into pieces of a vocabulary: from the left, always the longest piece.
-/
namespace GridOps
namespace Vocabulary

/-- The longest piece of the vocabulary that `cs` starts with, of at most `n` characters: its
length and its token. -/
def longestPiece? (v : Vocabulary) (continuation : Bool) (cs : List Char) :
    (n : Nat) → Option (Nat × UInt32)
  | 0 => none
  | n + 1 =>
    match v.lookupPiece (cs.take (n + 1)) continuation with
    | some id => some (n + 1, id)
    | none => longestPiece? v continuation cs n

/-- The tokens of `cs` in at most `fuel` pieces, if pieces cover all of it. -/
def segmentFrom (v : Vocabulary) :
    (fuel : Nat) → (continuation : Bool) → List Char → Option (List UInt32)
  | _, _, [] => some []
  | 0, _, _ :: _ => none
  | fuel + 1, continuation, cs =>
    match v.longestPiece? continuation cs cs.length with
    | none => none
    | some (n, id) => (segmentFrom v fuel true (cs.drop n)).map (id :: ·)

/-- The tokens of a word, if pieces cover all of it.  A piece has at least one character. -/
def segment? (v : Vocabulary) (word : List Char) : Option (List UInt32) :=
  v.segmentFrom word.length false word

/-- The buffers that the words of a string share. -/
structure Scratch where
  word : Array Char
  pieces : Array UInt32

namespace Scratch

def empty : Scratch := ⟨#[], #[]⟩

/-- The buffers with the characters of another word in them. -/
def load (s : Scratch) (word : List Char) : Scratch := { s with word := word.toArray }

end Scratch

/-- Adds the tokens of the pieces of `cs` to `pieces`, up to the place where no piece starts, and
tells whether pieces cover all of it. -/
def collect (v : Vocabulary) :
    (fuel : Nat) → (continuation : Bool) → List Char → (pieces : Array UInt32) →
      Bool × Array UInt32
  | _, _, [], pieces => (true, pieces)
  | 0, _, _ :: _, pieces => (false, pieces)
  | fuel + 1, continuation, cs, pieces =>
    match v.longestPiece? continuation cs cs.length with
    | none => (false, pieces)
    | some (n, id) => collect v fuel true (cs.drop n) (pieces.push id)

/-- The tokens of the word in the buffers: the unknown token alone if the word has more than
`maxLength` characters, or if pieces do not cover it.  The tokens are held back until they are known
to cover it. -/
def emitWord (v : Vocabulary) (maxLength : Nat) (s : Scratch) : List UInt32 × Scratch :=
  if maxLength < s.word.size then ([v.unknownId], s)
  else
    match v.collect s.word.size false s.word.toList #[] with
    | (true, pieces) => (pieces.toList, { s with pieces := pieces })
    | (false, pieces) => ([v.unknownId], { s with pieces := pieces })

/-- The tokens of words that follow each other, with the buffers as the words before left them. -/
def emitWords (v : Vocabulary) (maxLength : Nat) : List (List Char) → Scratch → List UInt32
  | [], _ => []
  | word :: rest, s =>
    let (tokens, s) := v.emitWord maxLength (s.load word)
    tokens ++ emitWords v maxLength rest s

/-- The tokens of a word alone. -/
def tokenizeWord (v : Vocabulary) (maxLength : Nat) (word : List Char) : List UInt32 :=
  (v.emitWord maxLength (Scratch.empty.load word)).1

end Vocabulary
end GridOps
