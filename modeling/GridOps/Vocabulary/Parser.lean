import GridOps.Device.Error
import GridOps.Text.CharClass
import GridOps.Text.Numeral
import GridOps.Text.Utf8
import GridOps.Vocabulary.Basic

/-!
Reading a vocabulary from text: unsigned 64-bit numerals between white space.

The numerals are the outer hash parameters, the bins with their number in front, the table with its
length in front, and three token ids.  Every bin must lie within the table.
-/
namespace GridOps

inductive VocabularyField
  | outerA
  | outerB
  | binCount
  | binCoefficient
  | binOffset
  | tableLength
  | tableEntry
  | unknownId
  | classId
  | separatorId
deriving DecidableEq, Repr

inductive VocabularyError
  | unexpectedEnd (field : VocabularyField) (position : Nat)
  | notANumber (field : VocabularyField) (position : Nat) (word : String) (cause : NumeralError)
  | tooLarge (field : VocabularyField) (value : Nat)
  | idTooLarge (field : VocabularyField) (value : Nat)
  | noBins
  | binOverflow (bin offset : Nat)
  | binOutside (bin first last slots : Nat)
  | trailing (word : String)
deriving DecidableEq, Repr

namespace VocabularyField

def name : VocabularyField → String
  | outerA => "outer hash parameter a"
  | outerB => "outer hash parameter b"
  | binCount => "number of bins"
  | binCoefficient => "bin coefficient"
  | binOffset => "bin offset"
  | tableLength => "hash table length"
  | tableEntry => "hash table entry"
  | unknownId => "unknown token id"
  | classId => "classification token id"
  | separatorId => "separator token id"

end VocabularyField

namespace VocabularyError

def detail : VocabularyError → String
  | unexpectedEnd field position =>
    s!"Unexpected end of file, expected {field.name} at token {position}"
  | notANumber field position word _ =>
    s!"Expected {field.name} at token {position}, but found '{word}'"
  | tooLarge field value => s!"{field.name} is too large: {value}"
  | idTooLarge field value => s!"{field.name} {value} exceeds 16 bits"
  | noBins => "The hash table must have at least one bin"
  | binOverflow bin offset => s!"Bin {bin} offset {offset} overflows the hash table"
  | binOutside bin first last slots =>
    s!"Bin {bin} spans slots {first}..{last}, but the table has {slots} slots"
  | trailing word => s!"Unexpected trailing token '{word}'"

def message (e : VocabularyError) : String := "Failed to load hashed vocabulary: " ++ e.detail

def causes : VocabularyError → List String
  | notANumber _ _ _ cause => [cause.message]
  | _ => []

end VocabularyError

namespace Vocabulary

/-- The words not yet read, and the number of those that were. -/
structure Reader where
  rest : List (List Char)
  position : Nat

abbrev ReadM (α : Type) := StateT Reader (Except VocabularyError) α

namespace Reader

def number (field : VocabularyField) : ReadM Nat := fun r =>
  match r.rest with
  | [] => .error (.unexpectedEnd field (r.position + 1))
  | word :: rest =>
    match Numeral.word 64 word with
    | .ok n => .ok (n, ⟨rest, r.position + 1⟩)
    | .error cause => .error (.notANumber field (r.position + 1) (String.ofList word) cause)

def length (field : VocabularyField) : ReadM Nat := do
  let n ← number field
  if n < UInt32.size then return n else throw (.tooLarge field n)

def tokenId (field : VocabularyField) : ReadM UInt32 := do
  let n ← number field
  if n < UInt16.size then return UInt32.ofNat n else throw (.idTooLarge field n)

def times {α : Type} (read : ReadM α) : (n : Nat) → ReadM (List α)
  | 0 => return []
  | n + 1 => do
    let a ← read
    return a :: (← times read n)

def bin : ReadM VocabularyBin := do
  let coefficient ← number .binCoefficient
  let offset ← number .binOffset
  return ⟨UInt64.ofNat coefficient, UInt64.ofNat offset⟩

/-- Checks that bin number `i` and those after it lie within a table of `slots` slots. -/
def checkBins (slots : Nat) : (i : Nat) → List VocabularyBin → Except VocabularyError Unit
  | _, [] => .ok ()
  | i, b :: rest =>
    let last := b.offset.toNat + b.size.toNat
    if UInt64.size ≤ last then .error (.binOverflow i b.offset.toNat)
    else if slots < last then .error (.binOutside i b.offset.toNat last slots)
    else checkBins slots (i + 1) rest

def finish : ReadM Unit := fun r =>
  match r.rest with
  | [] => .ok ((), r)
  | word :: _ => .error (.trailing (String.ofList word))

def vocabulary : ReadM Vocabulary := do
  let outerA ← number .outerA
  let outerB ← number .outerB
  let binCount ← length .binCount
  if binCount = 0 then throw .noBins
  let bins ← times bin binCount
  let tableLength ← length .tableLength
  let table ← times (number .tableEntry) tableLength
  checkBins tableLength 0 bins
  let unknownId ← tokenId .unknownId
  let classId ← tokenId .classId
  let separatorId ← tokenId .separatorId
  finish
  return ⟨UInt64.ofNat outerA, UInt64.ofNat outerB, bins.toArray,
    (table.map UInt64.ofNat).toArray, unknownId, classId, separatorId⟩

end Reader

/-- Reads a vocabulary that the whole text must hold. -/
def parse (text : List Char) : Except VocabularyError Vocabulary := do
  let (v, _) ← Reader.vocabulary ⟨CharClass.words text, 0⟩
  return v

inductive FileError
  /-- The file is missing or is not UTF-8. -/
  | unreadable
  /-- The file at `path` holds no vocabulary. -/
  | content (path : String) (cause : VocabularyError)
deriving DecidableEq, Repr

namespace FileError

def kind : FileError → ErrorKind
  | unreadable => .io
  | content .. => .invalidVocabulary

/-- An unreadable file has a text of the system's, which is not told here. -/
def message? : FileError → Option String
  | unreadable => none
  | content path _ => some s!"Failed to load hashed vocabulary: Failed to parse {path}"

def causes : FileError → List String
  | unreadable => []
  | content _ cause => cause.message :: cause.causes

end FileError

def ofFile (path : String) (bytes? : Option (List UInt8)) : Except FileError Vocabulary :=
  match bytes? with
  | none => .error .unreadable
  | some bytes =>
    match Utf8.decode bytes with
    | .error _ => .error .unreadable
    | .ok text => (parse text).mapError (.content path)

end Vocabulary
end GridOps
