import GridOps.Text.CharClass
import GridOps.Text.Lowercase
import GridOps.Text.Utf8

/-!
Cleaning up text before it is split into word pieces.

Control characters go, white space becomes blanks, and every punctuation mark and ideograph is set
off with blanks, so that it is a word of its own.  Optionally letters become lower case and lose
their accents.
-/
namespace GridOps

structure Normalizer where
  lowercase : Bool
deriving DecidableEq, Repr

namespace Normalizer

def default : Normalizer := ⟨true⟩

/-- Small Latin letters with marks, under the base letter that they lose their mark to.  Letters
that are no marked form of another stand for themselves and are not listed. -/
def accented : List (Char × List Char) :=
  [('a', ['à', 'á', 'â', 'ã', 'ä', 'å', 'ā', 'ă', 'ą']),
   ('c', ['ç', 'ć', 'ĉ', 'ċ', 'č']),
   ('d', ['ď']),
   ('e', ['è', 'é', 'ê', 'ë', 'ē', 'ĕ', 'ė', 'ę', 'ě']),
   ('g', ['ĝ', 'ğ', 'ġ', 'ģ']),
   ('h', ['ĥ']),
   ('i', ['ì', 'í', 'î', 'ï', 'ĩ', 'ī', 'ĭ', 'į']),
   ('j', ['ĵ']),
   ('k', ['ķ']),
   ('l', ['ĺ', 'ļ', 'ľ']),
   ('n', ['ñ', 'ń', 'ņ', 'ň']),
   ('o', ['ò', 'ó', 'ô', 'õ', 'ö', 'ō', 'ŏ', 'ő']),
   ('r', ['ŕ', 'ŗ', 'ř']),
   ('s', ['ś', 'ŝ', 'ş', 'š']),
   ('t', ['ţ', 'ť']),
   ('u', ['ù', 'ú', 'û', 'ü', 'ũ', 'ū', 'ŭ', 'ů', 'ű', 'ų']),
   ('w', ['ŵ']),
   ('y', ['ý', 'ÿ', 'ŷ']),
   ('z', ['ź', 'ż', 'ž'])]

/-- The base letter of a small Latin letter with a mark, and any other character itself. -/
def stripAccent (c : Char) : Char :=
  match accented.find? fun entry => entry.2.contains c with
  | some (base, _) => base
  | none => c

/-- A character that is a word of its own. -/
def isSolitary (c : Char) : Bool := CharClass.isPunctuation c || CharClass.isIdeograph c

/-- A character, set off with blanks if it is a word of its own. -/
def spaced (c : Char) : List Char := if isSolitary c then [' ', c, ' '] else [c]

def normalizeChar (n : Normalizer) (c : Char) : List Char :=
  if c = '\x00' ∨ c = Utf8.replacement then []
  else if CharClass.isWhitespace c then [' ']
  else if CharClass.isControl c then []
  else if n.lowercase then
    ((Lowercase.lower c).filter fun l => !CharClass.isCombiningMark l).flatMap
      fun l => spaced (stripAccent l)
  else spaced c

def normalize (n : Normalizer) (text : List Char) : List Char := text.flatMap n.normalizeChar

/-- Puts the normalized `text` behind `output`. -/
def appendTo (n : Normalizer) (text : List Char) (output : String) : String :=
  text.foldl (fun output c => (n.normalizeChar c).foldl String.push output) output

def words (n : Normalizer) (text : List Char) : List (List Char) :=
  CharClass.words (n.normalize text)

end Normalizer
end GridOps
