/-!
Classes of characters: white space, control characters, punctuation, ideographs and combining
marks.
-/
namespace GridOps
namespace CharClass

def within (c : Char) (first last : Nat) : Bool := first ≤ c.toNat && c.toNat ≤ last

def isWhitespace (c : Char) : Bool :=
  within c 0x9 0xD || c.toNat == 0x20 || c.toNat == 0x85 || c.toNat == 0xA0 ||
  c.toNat == 0x1680 || within c 0x2000 0x200A || within c 0x2028 0x2029 || c.toNat == 0x202F ||
  c.toNat == 0x205F || c.toNat == 0x3000

def isControl (c : Char) : Bool := c.toNat ≤ 0x1F || within c 0x7F 0x9F

/-- The combining marks that accents are written with. -/
def isCombiningMark (c : Char) : Bool := within c 0x300 0x36F

def isAsciiPunctuation (c : Char) : Bool :=
  within c 0x21 0x2F || within c 0x3A 0x40 || within c 0x5B 0x60 || within c 0x7B 0x7E

/-- Punctuation: that of ASCII, seven signs of Latin-1, and the blocks of general and of
ideographic punctuation. -/
def isPunctuation (c : Char) : Bool :=
  isAsciiPunctuation c || ['¡', '§', '«', '¶', '·', '»', '¿'].contains c ||
  within c 0x2000 0x206F || within c 0x3000 0x303F

/-- The blocks of Chinese, Japanese and Korean ideographs. -/
def isIdeograph (c : Char) : Bool :=
  within c 0x4E00 0x9FFF || within c 0x3400 0x4DBF || within c 0x20000 0x2A6DF ||
  within c 0x2A700 0x2B73F || within c 0x2B740 0x2B81F || within c 0x2B820 0x2CEAF ||
  within c 0xF900 0xFAFF || within c 0x2F800 0x2FA1F

/-- The words of a text: what stands between white space.  `word` is the word read so far, its
last character first. -/
def wordsFrom (word : List Char) : List Char → List (List Char)
  | [] => if word.isEmpty then [] else [word.reverse]
  | c :: rest =>
    if isWhitespace c then
      if word.isEmpty then wordsFrom [] rest else word.reverse :: wordsFrom [] rest
    else wordsFrom (c :: word) rest

def words (text : List Char) : List (List Char) := wordsFrom [] text

end CharClass
end GridOps
