import GridOps.Vocabulary.Parser

/-!
What can go wrong in tokenizing, as causes.
-/
namespace GridOps

inductive TokenizerError
  | device (error : DeviceError)
  | vocabulary (error : VocabularyError)
  | file (error : Vocabulary.FileError)
  | sequenceLength (length : Nat)
  | stride (largest stride : Nat)
  | offsetWidth
  | wordLength
  | tensorSize
  | tooManyStrings (strings largest : Nat)
  | tooFewOffsets (expected offsets : Nat)
  | decreasingOffsets
  | offsetOutside (offset bytes : Nat)
  | tooManyBytes (bytes largest : Nat)
  | tokenCount
  | tooManyRows (rows largest : Nat)
deriving DecidableEq, Repr

namespace TokenizerError

def kind : TokenizerError → ErrorKind
  | device error => error.kind
  | vocabulary _ => .invalidVocabulary
  | file error => error.kind
  | tensorSize | tokenCount => .integerOverflow
  | sequenceLength _ | stride .. | offsetWidth | wordLength | tooManyStrings .. | tooFewOffsets ..
  | decreasingOffsets | offsetOutside .. | tooManyBytes .. | tooManyRows .. => .invalidArgument

def message? : TokenizerError → Option String
  | device error => some error.message
  | vocabulary error => some error.message
  | file error => error.message?
  | sequenceLength length =>
    some s!"Aborted with: Max sequence length must be in 1..=4294967295, but is {length}"
  | stride largest advance =>
    some s!"Aborted with: Stride must be in 1..={largest}, but is {advance}"
  | offsetWidth => some "Aborted with: Max strings and chars must fit into 32-bit offsets"
  | wordLength => some "Aborted with: Max word length must be greater than zero"
  | tensorSize => some "Aborted with: Tensor size overflows"
  | tooManyStrings strings largest =>
    some s!"Aborted with: Got {strings} strings, but the tokenizer supports at most {largest}"
  | tooFewOffsets expected offsets =>
    some s!"Aborted with: Expected {expected} offsets, but got {offsets}"
  | decreasingOffsets => some "Aborted with: String offsets must not decrease"
  | offsetOutside offset bytes =>
    some s!"Aborted with: String offset {offset} is beyond the input of {bytes} bytes"
  | tooManyBytes bytes largest =>
    some s!"Aborted with: Got {bytes} bytes, but the tokenizer supports at most {largest}"
  | tokenCount => some "Aborted with: Token count of a string exceeds 32 bits"
  | tooManyRows rows largest =>
    some s!"Aborted with: Tensor needs {rows} rows, but the tokenizer supports at most {largest}"

def causes : TokenizerError → List String
  | vocabulary error => error.causes
  | file error => error.causes
  | _ => []

end TokenizerError
end GridOps
