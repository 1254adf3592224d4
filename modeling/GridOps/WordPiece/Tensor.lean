import GridOps.WordPiece.Tokenizer

/-!
Arranging tokens in a tensor of fixed width.

A string takes one or more rows.  Consecutive rows of a string advance by the stride, so they share
tokens; each row's metadata tells its string, and the first and the last of its places that the row
before does not share.
-/
namespace GridOps

/-- Rows of tokens, a mask that marks the places in use, and three metadata values per row. -/
structure Tensor where
  rows : Nat
  width : Nat
  ids : Array UInt32
  mask : Array UInt32
  metadata : Array UInt32
deriving DecidableEq, Repr

namespace Tensor

inductive Buffer
  | ids
  | mask
  | metadata
deriving DecidableEq, Repr

def get (t : Tensor) : Buffer → Array UInt32
  | .ids => t.ids
  | .mask => t.mask
  | .metadata => t.metadata

def set (t : Tensor) (b : Buffer) (values : Array UInt32) : Tensor :=
  match b with
  | .ids => { t with ids := values }
  | .mask => { t with mask := values }
  | .metadata => { t with metadata := values }

def metadataColumns : Nat := 3

def bytes (t : Tensor) : Nat :=
  (t.ids.size + t.mask.size + t.metadata.size) * Word.bytes UInt32

/-- The values from place `first` on up to place `last`, if they are there. -/
def slice? (values : Array UInt32) (first last : Nat) : Option (List UInt32) :=
  if last ≤ values.size then some (values.extract first last).toList else none

/-- The tokens of a row, if the tensor has it. -/
def rowIds? (t : Tensor) (row : Nat) : Option (List UInt32) := do
  let first ← Size.of? (row * t.width)
  let last ← Size.of? (first + t.width)
  slice? t.ids first last

/-- The metadata of a row, if the tensor has it.  Only where they start is asked for first, so the
row that starts at the top of the sizes stops it. -/
def rowMetadata? (t : Tensor) (row : Nat) : Except Fault (Option (List UInt32)) :=
  match Size.of? (row * metadataColumns) with
  | none => .ok none
  | some first => do
    let last ← Size.add first metadataColumns
    return slice? t.metadata first last

end Tensor

namespace TokenizerOptions

def rowsFor (o : TokenizerOptions) (tokens : Nat) : Nat :=
  if tokens ≤ o.sequenceLength ∨ o.truncate then 1
  else 1 + (tokens - o.sequenceLength + o.stride - 1) / o.stride

end TokenizerOptions

namespace Tensor

def span (offsets : Array UInt32) (i : Nat) : Nat × Nat :=
  ((offsets[i]?.getD 0).toNat, (offsets[i + 1]?.getD 0).toNat)

def countKernel (o : TokenizerOptions) (t : TokenIds) : Kernel (Array UInt32) := fun th => do
  let i := th.global
  if i < t.count then
    let (first, last) := span t.offsets i
    scatter i (UInt32.ofNat (o.rowsFor (last - first)))

def rowTokens (o : TokenizerOptions) (tokens : List UInt32) (r : Nat) : List UInt32 :=
  (tokens.drop (r * o.stride)).take o.sequenceLength

def rowMetadata (o : TokenizerOptions) (tokens : List UInt32) (i r : Nat) : List UInt32 :=
  let first := if r = 0 then 0 else o.sequenceLength - o.stride
  let last := (rowTokens o tokens r).length - 1
  [UInt32.ofNat i, UInt32.ofNat first, UInt32.ofNat last]

/-- Does `m` to one buffer.  The tensor does not hold the buffer meanwhile, so that it is not
copied. -/
def on (b : Buffer) (m : EStateM Fault (Array UInt32) Unit) : EStateM Fault Tensor Unit := fun t =>
  let values := t.get b
  let t := t.set b #[]
  match m values with
  | .ok _ values => .ok () (t.set b values)
  | .error fault values => .error fault (t.set b values)

def fillRow (o : TokenizerOptions) (tokens : List UInt32) (i r row : Nat) :
    EStateM Fault Tensor Unit := do
  on .ids (scatterFrom (rowTokens o tokens r) (row * o.sequenceLength))
  on .mask (scatterFrom ((rowTokens o tokens r).map fun _ => 1) (row * o.sequenceLength))
  on .metadata (scatterFrom (rowMetadata o tokens i r) (row * metadataColumns))

def fillKernel (o : TokenizerOptions) (t : TokenIds) (rowOffsets : Array UInt32) :
    Kernel Tensor := fun th => do
  let i := th.global
  if i < t.count then
    let (first, last) := span t.offsets i
    let (firstRow, lastRow) := span rowOffsets i
    let tokens := (t.ids.extract first last).toList
    (List.range (lastRow - firstRow)).forM fun r => fillRow o tokens i r (firstRow + r)

/-- Holds `items` 32-bit words on the device while `body` runs, and beyond if it succeeds. -/
def holding {α : Type} (items : Nat) (body : DeviceM TokenizerError α) :
    DeviceM TokenizerError α := do
  DeviceM.mapError .device (DeviceM.allocate items (Word.bytes UInt32))
  DeviceM.keepingBytes (items * Word.bytes UInt32) body

def rowOffsets (o : TokenizerOptions) (t : TokenIds) (l : Launch) :
    DeviceM DeviceError (Array UInt32) := do
  DeviceM.allocate t.count (Word.bytes UInt32)
  DeviceM.withBytes (t.count * Word.bytes UInt32) do
    let counts ← DeviceM.launch "count_tensor_rows" l (countKernel o t) (Array.replicate t.count 0)
    PrefixSum.default.offsets counts

def ofTokens (o : TokenizerOptions) (t : TokenIds) : DeviceM TokenizerError Tensor := do
  let l ← DeviceM.mapError .device
    (DeviceM.ofExcept (Launch.forLen (UInt64.ofNat t.count) o.block))
  let offsets ← DeviceM.mapError .device (rowOffsets o t l)
  DeviceM.withBytes (offsets.size * Word.bytes UInt32) do
    let rows := (offsets[t.count]?.getD 0).toNat
    let cells := rows * o.sequenceLength
    if o.maxRows < rows then DeviceM.fail (.tooManyRows rows o.maxRows)
    else if Device.maxBytes < cells then DeviceM.fail .tensorSize
    else
      holding cells <| holding cells <| holding (rows * metadataColumns) fun d =>
        let zeros : Tensor := ⟨rows, o.sequenceLength, Array.replicate cells 0,
          Array.replicate cells 0, Array.replicate (rows * metadataColumns) 0⟩
        DeviceM.mapError .device (DeviceM.launch "fill_tensor" l (fillKernel o t offsets) zeros) d

end Tensor

namespace Tokenizer

def tensor (t : Tokenizer) (b : Batch) : DeviceM TokenizerError Tensor := do
  let tokens ← t.tokenize b
  DeviceM.withBytes tokens.bytes (Tensor.ofTokens t.toTokenizerOptions tokens)

/-- Tokenizes one batch with a default tokenizer made for it.  Only the tokens stay on the
device. -/
def tokenizeOnce (v : Vocabulary) (b : Batch) : DeviceM TokenizerError TokenIds := do
  let options :=
    { TokenizerOptions.default with maxStrings := max b.count 1, maxBytes := b.bytes.size }
  let t ← options.build v
  DeviceM.withBytes t.bytes (t.tokenize b)

end Tokenizer
end GridOps
