import GridOps.Device.Error
import GridOps.Key
import GridOps.Relation.Record
import GridOps.Text.Numeral
import GridOps.Text.Utf8

/-!
Files of relations: a header line, and then a record for every row, whose first two fields are a
key and a value.  All records have as many fields as the header, and only the keys are kept.
-/
namespace GridOps

inductive FieldError
  | encoding (error : Utf8.Error)
  | numeral (error : NumeralError)
deriving DecidableEq, Repr

namespace FieldError

def message : FieldError → String
  | encoding error => error.message
  | numeral error => error.message

end FieldError

inductive RelationFileError
  | missing
  /-- The contents break off, or are not compressed as the name of the file says. -/
  | brokenOff
  | fieldCount (place : Place) (count expected : Nat)
  | field (place : Place) (index : Nat) (cause : FieldError)
  /-- A record has a key but no value. -/
  | noValue (place : Place)
deriving DecidableEq, Repr

namespace RelationFileError

def kind : RelationFileError → ErrorKind
  | missing => .io
  | brokenOff | fieldCount .. | field .. | noValue _ => .csv

/-- A file that cannot be read has a text of the system's, which is not told here. -/
def message? : RelationFileError → Option String
  | missing | brokenOff => none
  | fieldCount place count expected =>
    some (s!"CSV error: {place.text}: found record with {count} fields, " ++
      s!"but the previous record has {expected} fields")
  | field place index cause =>
    some s!"CSV deserialize error: {place.text}: field {index}: {cause.message}"
  | noValue place =>
    some s!"CSV deserialize error: {place.text}: invalid length 1, expected a tuple of size 2"

end RelationFileError

namespace RelationFile

/-- The integer that a field holds: a decimal numeral, or a hexadecimal one after `0x`. -/
def integer (type : KeyType) (field : List UInt8) : Except FieldError Int := do
  let text ← (Utf8.decode field).mapError .encoding
  let numeral := match text with
    | '0' :: 'x' :: digits => Numeral.parse type.lowest type.largest 16 digits
    | _ => Numeral.parse type.lowest type.largest 10 text
  numeral.mapError .numeral

/-- The key of a record, which must have a value too. -/
def key (K : Type) [JoinKey K] (r : Record) : Except RelationFileError K :=
  let field (index : Nat) (bytes : List UInt8) : Except RelationFileError Int :=
    (integer (JoinKey.type K) bytes).mapError (.field r.place index)
  match r.fields with
  | [] => .error (.noValue r.place)
  | [first] => do
    let _ ← field 0 first
    throw (.noValue r.place)
  | first :: second :: _ => do
    let number ← field 0 first
    let _ ← field 1 second
    return JoinKey.ofInt number

/-- Reads on to the end, with the keys that have been read already. -/
def keysFrom {K : Type} [JoinKey K] (width : Nat) (keys : Array K) (reader : RecordReader) :
    Except RelationFileError (Array K) :=
  match _h : reader.next with
  | .finished => .ok keys
  | .brokenOff => .error .brokenOff
  | .record r next =>
    if r.fields.length ≠ width then .error (.fieldCount r.place r.fields.length width)
    else match key K r with
      | .ok k => keysFrom width (keys.push k) next
      | .error e => .error e
termination_by reader.rest.length
decreasing_by exact RecordReader.length_next_lt (by assumption)

def keys (K : Type) [JoinKey K] (contents : Contents) : Except RelationFileError (Array K) :=
  match (RecordReader.ofContents contents).next with
  | .finished => .ok #[]
  | .brokenOff => .error .brokenOff
  | .record header next => keysFrom header.fields.length #[] next

def readKeys (K : Type) [JoinKey K] (name : String) (bytes? : Option (List UInt8)) :
    Except RelationFileError (Array K) :=
  match bytes? with
  | none => .error .missing
  | some bytes => keys K (Contents.ofFile name bytes)

end RelationFile
end GridOps
