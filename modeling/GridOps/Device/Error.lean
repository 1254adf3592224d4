/-!
What can go wrong on a device, as causes.

A `Fault` stops a thread of a kernel, or an operation itself.  A `DeviceError` is how a device
operation fails; its `kind` says which sort of failure it is and its `message` words it.
-/
namespace GridOps

/-- Why a thread of a kernel, or an operation, stopped. -/
inductive Fault
  /-- A write outside a buffer that the threads share. -/
  | writeOutOfBounds (index length : Nat)
  /-- A read outside a column. -/
  | readOutOfBounds (index length : Nat)
  /-- A sum of sizes that is no size. -/
  | additionOverflow
  | subtractionOverflow
  | multiplicationOverflow
  /-- A row number for which a row index type of so many bits has no index. -/
  | rowOverflow (bits : Nat)
  /-- The reserved key in place of a key. -/
  | reservedKey
  /-- The kernel gave up with a text. -/
  | message (text : String)
  /-- The kernel gave up and left no text. -/
  | silent
deriving DecidableEq, Repr

namespace Fault

def text : Fault → String
  | writeOutOfBounds index length =>
    s!"Write at index {index} out of bounds of length {length}"
  | readOutOfBounds index length =>
    s!"index out of bounds: the len is {length} but the index is {index}"
  | additionOverflow => "attempt to add with overflow"
  | subtractionOverflow => "attempt to subtract with overflow"
  | multiplicationOverflow => "attempt to multiply with overflow"
  | rowOverflow bits => s!"assertion failed: row < <u{bits}>::MAX as usize"
  | reservedKey => "Cannot insert the empty key sentinel"
  | message text => text
  | silent => "unknown panic"

end Fault

inductive ErrorKind
  | invalidArgument
  | integerOverflow
  | launchFailed
  | outOfMemory
  | hashTableFull
  | outputLimitExceeded
  | invalidVocabulary
  | io
  | csv
  /-- No error of the operation's own: it stopped. -/
  | fault
deriving DecidableEq, Repr

inductive DeviceError
  | emptyMorsel
  | emptyBlock
  | emptyLaunch (kernel : String)
  | emptyChunk
  | scanLengths (input output : Nat)
  | gridTooLarge (blocks : Nat)
  | sizeOverflow (items size : Nat)
  | sumOverflow
  | launchFailed (kernel : String) (fault : Fault)
  | outOfMemory (requested available : Nat)
  /-- The operation stopped and told its caller nothing. -/
  | stopped (fault : Fault)
deriving DecidableEq, Repr

namespace DeviceError

def kind : DeviceError → ErrorKind
  | emptyMorsel | emptyBlock | emptyLaunch _ | emptyChunk | scanLengths .. => .invalidArgument
  | gridTooLarge _ | sizeOverflow .. | sumOverflow => .integerOverflow
  | launchFailed .. => .launchFailed
  | outOfMemory .. => .outOfMemory
  | stopped _ => .fault

def message : DeviceError → String
  | emptyMorsel => "Aborted with: Blocks per morsel must be greater than zero"
  | emptyBlock => "Aborted with: Block size must be greater than zero"
  | emptyLaunch kernel => s!"Aborted with: Kernel '{kernel}' launched with empty grid or block"
  | emptyChunk => "Aborted with: Items per thread must be greater than zero"
  | scanLengths input output =>
    s!"Aborted with: Scan input has length {input}, but output has length {output}"
  | gridTooLarge blocks => s!"Aborted with: Grid size of {blocks} blocks exceeds u32"
  | sizeOverflow items size =>
    s!"Aborted with: Allocation of {items} items with {size} bytes each overflows"
  | sumOverflow => "Aborted with: Prefix sum exceeds the item type"
  | launchFailed kernel fault => s!"Kernel '{kernel}' failed with: {fault.text}"
  | outOfMemory requested available =>
    s!"Out of device memory: requested {requested} bytes, but only {available} bytes are available"
  | stopped fault => fault.text

end DeviceError
end GridOps
