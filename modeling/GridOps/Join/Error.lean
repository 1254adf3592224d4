import GridOps.Device.Error

/-!
What can go wrong in a join, as causes.
-/
namespace GridOps

/-- Why a join, or a step of one, failed. -/
inductive JoinError
  | device (error : DeviceError)
  | occupancy (percent : Nat)
  | emptyBlock
  | emptyThreshold
  | emptyTable
  | capacityOverflow
  | tableFull (capacity : Nat)
  | reservedKeys (count : Nat) (key : Int)
  | buildRows (rows : Nat)
  | inputRows (rows : Nat)
  | tooManyColumns (columns : Nat)
  | columnLength (column keys : Nat)
  | columnCounts (left right : Nat)
  | columnTypes (left right : String)
  | extrapolationOverflow
  | growthOverflow
  | overLimit (found limit : Nat)
  | retriesExhausted (found slots retries : Nat)
deriving DecidableEq, Repr

namespace JoinError

def kind : JoinError → ErrorKind
  | device error => error.kind
  | occupancy _ | emptyBlock | emptyThreshold | emptyTable | reservedKeys .. | buildRows _
  | inputRows _ | tooManyColumns _ | columnLength .. | columnCounts .. | columnTypes .. =>
    .invalidArgument
  | capacityOverflow | extrapolationOverflow | growthOverflow => .integerOverflow
  | tableFull _ => .hashTableFull
  | overLimit .. | retriesExhausted .. => .outputLimitExceeded

def message : JoinError → String
  | device error => error.message
  | occupancy percent => s!"Aborted with: Occupancy must be in the range 1-100%, but is {percent}%"
  | emptyBlock => "Aborted with: Block size must be greater than zero"
  | emptyThreshold => "Aborted with: Sample threshold must be greater than zero"
  | emptyTable => "Aborted with: Hash table capacity must be greater than zero"
  | capacityOverflow => "Aborted with: Failed to compute hash table capacity"
  | tableFull capacity => s!"Hash table with {capacity} slots has no empty slot left"
  | reservedKeys count key =>
    s!"Aborted with: {count} build keys equal the reserved empty key {key}"
  | buildRows rows =>
    s!"Aborted with: Build side has {rows} rows, which exceeds the row index type"
  | inputRows rows => s!"Aborted with: Input has {rows} rows, which exceeds the row index type"
  | tooManyColumns columns =>
    s!"Aborted with: Composite keys support at most 3 columns, but got {columns}"
  | columnLength column keys =>
    s!"Aborted with: Key column of length {column} differs from the primary key length {keys}"
  | columnCounts left right =>
    s!"Aborted with: Left side has {left} key columns, but right side has {right}"
  | columnTypes left right =>
    s!"Aborted with: Cannot compare {left} key column with {right} key column"
  | extrapolationOverflow => "Aborted with: Failed to extrapolate the output size"
  | growthOverflow => "Aborted with: Failed to grow the output buffer"
  | overLimit found limit =>
    s!"Join output limit exceeded: {found} result rows exceed the limit of {limit} rows"
  | retriesExhausted found slots retries =>
    "Join output limit exceeded: " ++
      s!"{found} result rows don't fit into {slots} slots after {retries} retries"

end JoinError
end GridOps
