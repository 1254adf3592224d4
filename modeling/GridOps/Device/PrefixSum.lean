import GridOps.Device.Memory

/-!
Exclusive prefix sums over words, in three phases: every thread sums one chunk of the input, the
host sums the chunks, and every thread writes the running sums of its chunk.
-/
namespace GridOps

structure PrefixSum where
  block : UInt32
  chunk : UInt64
deriving DecidableEq, Repr

namespace PrefixSum

variable {α : Type} [Word α]

def default : PrefixSum := ⟨128, 256⟩

def build (block : UInt32) (chunk : UInt64) : Except DeviceError PrefixSum :=
  if chunk = 0 then .error .emptyChunk else .ok ⟨block, chunk⟩

/-- The number of chunks of `len` items. -/
def chunks (p : PrefixSum) (len : Nat) : Nat := Size.parts len p.chunk.toNat

def chunkItems (p : PrefixSum) (input : Array α) (c : Nat) : List α :=
  (input.extract (c * p.chunk.toNat) (c * p.chunk.toNat + p.chunk.toNat)).toList

def checkedSum (items : List α) : Option α :=
  items.foldlM Word.checkedAdd (Word.ofNat 0)

/-- Sums one chunk per thread.  A chunk whose sum the type does not have is counted and has sum
zero. -/
def aggregateKernel (p : PrefixSum) (input : Array α) (chunks : Nat) :
    Kernel (UInt64 × Array α) := fun t => do
  let c := t.global
  if c < chunks then
    match checkedSum (p.chunkItems input c) with
    | some sum => onSecond (scatter c sum)
    | none =>
      modify fun (overflows, sums) => (overflows + 1, sums)
      onSecond (scatter c (Word.ofNat 0))

/-- The sums before each chunk and the sum of all, if the type has it. -/
def runningSums : List α → α → Option (List α × α)
  | [], total => some ([], total)
  | a :: rest, total => do
    let (before, all) ← runningSums rest (← Word.checkedAdd total a)
    return (total :: before, all)

/-- Writes the running sums of `items` from index `i` on, starting at `sum`. -/
def writeRunning : List α → (i : Nat) → (sum : α) → EStateM Fault (Array α) Unit
  | [], _, _ => pure ()
  | a :: rest, i, sum => do
    scatter i sum
    match Word.checkedAdd sum a with
    | some sum => writeRunning rest (i + 1) sum
    | none => throw .additionOverflow

def scanKernel (p : PrefixSum) (input : Array α) (chunks : Nat) (before : Array α) :
    Kernel (Array α) := fun t => do
  let c := t.global
  if c < chunks then
    writeRunning (p.chunkItems input c) (c * p.chunk.toNat) (before[c]?.getD (Word.ofNat 0))

/-- Sums the chunks of `input` and then the sums: the launch, the sum before each chunk and the sum
of all items. -/
def sumChunks (p : PrefixSum) (input : Array α) (l : Launch) :
    DeviceM DeviceError (Launch × Array α × α) := do
  let chunks := p.chunks input.size
  let zeros := Array.replicate chunks (Word.ofNat 0 : α)
  let (overflows, sums) ←
    DeviceM.launch "chunk_aggregate" l (p.aggregateKernel input chunks) (0, zeros)
  if overflows ≠ 0 then DeviceM.fail .sumOverflow
  else match runningSums sums.toList (Word.ofNat 0) with
    | none => DeviceM.fail .sumOverflow
    | some (before, total) => return (l, before.toArray, total)

/-- `sumChunks` over a grid for the chunks, which are counted with sizes.  The counter of overflows
and the chunk sums are on the device meanwhile. -/
def aggregate (p : PrefixSum) (input : Array α) : DeviceM DeviceError (Launch × Array α × α) := do
  let chunks ← DeviceM.ofExcept
    ((Size.countParts input.size p.chunk.toNat).mapError DeviceError.stopped)
  let l ← DeviceM.ofExcept (Launch.forLen (UInt64.ofNat chunks) p.block)
  DeviceM.withCounter do
    DeviceM.allocate chunks (Word.bytes α)
    DeviceM.withBytes (chunks * Word.bytes α) (p.sumChunks input l)

/-- Writes the exclusive prefix sums of `input` over `output` and returns the sum of all items, the
output as it then is, and the device. -/
def scan (p : PrefixSum) (input output : Array α) (d : Device) :
    Except DeviceError α × Array α × Device :=
  if input.size ≠ output.size then (.error (.scanLengths input.size output.size), output, d)
  else if input.isEmpty then (.ok (Word.ofNat 0), output, d)
  else
    match p.aggregate input d with
    | .error e d => (.error e, output, d)
    | .ok (l, before, total) d =>
      match d.run "chunk_exclusive_scan" l (p.scanKernel input (p.chunks input.size) before)
        output with
      | (⟨output, none⟩, d) => (.ok total, output, d)
      | (⟨output, some e⟩, d) => (.error e, output, d)

/-- The offsets of consecutive runs of the given lengths: one more entry than lengths, the last
being the total.  The offsets stay on the device. -/
def offsets (p : PrefixSum) (counts : Array α) : DeviceM DeviceError (Array α) := do
  DeviceM.allocate (counts.size + 1) (Word.bytes α)
  DeviceM.keepingBytes ((counts.size + 1) * Word.bytes α) fun d =>
    match p.scan counts (Array.replicate counts.size (Word.ofNat 0)) d with
    | (.ok total, sums, d) => .ok (sums.push total) d
    | (.error e, _, d) => .error e d

end PrefixSum
end GridOps
