import GridOps.Join.Error
import GridOps.Relation.Error
import GridOps.Relation.File

/-!
What can go wrong in a benchmark, as causes.
-/
namespace GridOps

inductive BenchError
  | device (error : DeviceError)
  | join (error : JoinError)
  | relation (error : RelationError)
  | file (error : RelationFileError)
  | noExponent
  | noInnerLength
  | noOuterLength
deriving DecidableEq, Repr

namespace BenchError

def kind : BenchError → ErrorKind
  | device error => error.kind
  | join error => error.kind
  | relation error => error.kind
  | file error => error.kind
  | noExponent | noInnerLength | noOuterLength => .invalidArgument

def message? : BenchError → Option String
  | device error => some error.message
  | join error => some error.message
  | relation error => some error.message
  | file error => error.message?
  | noExponent => some "Aborted with: Zipf exponent must be specified with --zipf-exponent"
  | noInnerLength =>
    some ("Aborted with: Couldn't find inner relation size. " ++
      "Did you specify --inner-rel-tuples?")
  | noOuterLength =>
    some ("Aborted with: Couldn't find outer relation size. " ++
      "Did you specify --outer-rel-tuples?")

end BenchError
end GridOps
