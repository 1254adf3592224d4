import GridOps.Device.PrefixSum
import GridOps.Text.Normalize
import GridOps.WordPiece.Error
import GridOps.WordPiece.Segment

/-!
Tokenizing batches of strings on a device.

A batch is one buffer of bytes with the offsets of its strings.  One thread per string counts its
tokens, a prefix sum turns the counts into offsets, and one thread per string writes its tokens.
-/
namespace GridOps

structure TokenizerOptions where
  maxStrings : Nat
  maxBytes : Nat
  maxRows : Nat
  sequenceLength : Nat
  stride : Nat
  truncate : Bool
  normalizer : Normalizer
  maxWordLength : Nat
  block : UInt32
deriving DecidableEq, Repr

structure Tokenizer extends TokenizerOptions where
  vocabulary : Vocabulary

/-- Strings back to back, and where each of the first `count` of them starts and ends. -/
structure Batch where
  bytes : Array UInt8
  offsets : Array UInt32
  count : Nat

/-- The tokens of a batch, string after string, and where each string's tokens start and end. -/
structure TokenIds where
  ids : Array UInt32
  offsets : Array UInt32
deriving DecidableEq, Repr

namespace TokenizerOptions

def default : TokenizerOptions := ⟨1024, 1048576, 4096, 64, 48, false, Normalizer.default, 200, 64⟩

def max32 : Nat := UInt32.size - 1

def check (o : TokenizerOptions) : Except TokenizerError Unit :=
  if o.sequenceLength = 0 ∨ max32 < o.sequenceLength then
    .error (.sequenceLength o.sequenceLength)
  else if o.stride = 0 ∨ o.sequenceLength < o.stride then
    .error (.stride o.sequenceLength o.stride)
  else if max32 ≤ o.maxStrings ∨ max32 < o.maxBytes then .error .offsetWidth
  else if o.maxWordLength = 0 then .error .wordLength
  else if Device.maxBytes < o.maxRows * o.sequenceLength then .error .tensorSize
  else .ok ()

/-- Makes a tokenizer, which holds device memory for its vocabulary. -/
def build (o : TokenizerOptions) (v : Vocabulary) : DeviceM TokenizerError Tokenizer := do
  DeviceM.ofExcept o.check
  DeviceM.mapError .device (DeviceM.reserveItems v.words (Word.bytes UInt64))
  return ⟨o, v⟩

end TokenizerOptions

namespace Batch

def string (b : Batch) (i : Nat) : List UInt8 :=
  (b.bytes.extract (b.offsets[i]?.getD 0).toNat (b.offsets[i + 1]?.getD 0).toNat).toList

def decreases : List UInt32 → Bool
  | a :: b :: rest => b < a || decreases (b :: rest)
  | _ => false

end Batch

namespace TokenIds

def bytes (t : TokenIds) : Nat := (t.ids.size + t.offsets.size) * Word.bytes UInt32

def count (t : TokenIds) : Nat := t.offsets.size - 1

/-- The tokens of string `i`, if the batch has it. -/
def string? (t : TokenIds) (i : Nat) : Option (List UInt32) := do
  let first := (← t.offsets[i]?).toNat
  let last := (← t.offsets[i + 1]?).toNat
  if first ≤ last ∧ last ≤ t.ids.size then some (t.ids.extract first last).toList else none

end TokenIds

namespace Tokenizer

def bytes (t : Tokenizer) : Nat := t.vocabulary.words * Word.bytes UInt64

/-- The tokens of a string of bytes. -/
def stringTokens (t : Tokenizer) (bytes : List UInt8) : List UInt32 :=
  t.vocabulary.emitWords t.maxWordLength (t.normalizer.words (Utf8.decodeLossy bytes)) .empty

/-- A batch is within the limits, and its offsets ascend within its bytes. -/
def check (t : Tokenizer) (b : Batch) : Except TokenizerError Unit :=
  let used := b.offsets.toList.take (b.count + 1)
  let first := (used.head?.getD 0).toNat
  let last := (used.getLast?.getD 0).toNat
  if t.maxStrings < b.count then .error (.tooManyStrings b.count t.maxStrings)
  else if b.offsets.size ≤ b.count then .error (.tooFewOffsets (b.count + 1) b.offsets.size)
  else if Batch.decreases used then .error .decreasingOffsets
  else if b.bytes.size < last then .error (.offsetOutside last b.bytes.size)
  else if t.maxBytes < last - first then .error (.tooManyBytes (last - first) t.maxBytes)
  else .ok ()

/-- The thread of a string counts its tokens.  Counts that 32 bits do not hold are counted
themselves. -/
def countKernel (t : Tokenizer) (b : Batch) : Kernel (UInt64 × Array UInt32) := fun th => do
  let i := th.global
  if i < b.count then
    let n := (t.stringTokens (b.string i)).length
    if TokenizerOptions.max32 < n then
      modify fun (overflows, counts) => (overflows + 1, counts)
    else onSecond (scatter i (UInt32.ofNat n))

/-- The thread of a string writes its tokens where the offsets say. -/
def writeKernel (t : Tokenizer) (b : Batch) (offsets : Array UInt32) : Kernel (Array UInt32) :=
  fun th => do
    let i := th.global
    if i < b.count then
      scatterFrom (t.stringTokens (b.string i)) (offsets[i]?.getD 0).toNat

def tokenOffsets (t : Tokenizer) (b : Batch) (l : Launch) :
    DeviceM TokenizerError (Array UInt32) := do
  DeviceM.mapError .device (DeviceM.allocate b.count (Word.bytes UInt32))
  DeviceM.withBytes (b.count * Word.bytes UInt32) do
    let zeros := Array.replicate b.count 0
    let (overflows, counts) ← DeviceM.mapError .device
      (DeviceM.launch "count_tokens" l (t.countKernel b) (0, zeros))
    if overflows ≠ 0 then DeviceM.fail .tokenCount
    else DeviceM.mapError .device (PrefixSum.default.offsets counts)

def tokenize (t : Tokenizer) (b : Batch) : DeviceM TokenizerError TokenIds := do
  DeviceM.ofExcept (t.check b)
  if b.count = 0 then
    DeviceM.mapError .device (DeviceM.allocate 1 (Word.bytes UInt32))
    return ⟨#[], #[0]⟩
  else
    let l ← DeviceM.mapError .device
      (DeviceM.ofExcept (Launch.forLen (UInt64.ofNat b.count) t.block))
    DeviceM.mapError .device (DeviceM.reserveItems 1 DeviceM.counterBytes)
    DeviceM.withBytes DeviceM.counterBytes do
      let offsets ← t.tokenOffsets b l
      DeviceM.keepingBytes (offsets.size * Word.bytes UInt32) do
        let total := (offsets[b.count]?.getD 0).toNat
        DeviceM.mapError .device (DeviceM.allocate total (Word.bytes UInt32))
        DeviceM.keepingBytes (total * Word.bytes UInt32) do
          let ids ← DeviceM.mapError .device
            (DeviceM.launch "write_token_ids" l (t.writeKernel b offsets)
              (Array.replicate total 0))
          return ⟨ids, offsets⟩

end Tokenizer
end GridOps
