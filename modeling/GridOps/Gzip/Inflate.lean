import GridOps.Gzip.Huffman

/-!
Unpacking a deflate stream: blocks of literal bytes and of references to bytes unpacked before.

A reader asks for unpacked bytes in portions.  It is handed a portion when the portion is full and
one more byte is due, or when more packed bytes have to be fetched; so if the stream breaks off, it
has got some of what was unpacked before.
-/
namespace GridOps
namespace Inflate

inductive Stop
  /-- The bytes end within the stream. -/
  | truncated
  | corrupt
deriving DecidableEq, Repr

/-- The packed bytes, the next bit of them, the bytes unpacked so far, and how many of those the
reader has been handed. -/
structure State where
  packed : Array UInt8
  position : Nat
  output : Array UInt8
  handed : Nat

/-- The number of bytes that a reader asks for at a time. -/
def portion : Nat := 8192

/-- The number of packed bits that are fetched at a time. -/
def fetchedBits : Nat := 262144

namespace State

def handOver (s : State) : State := { s with handed := s.output.size }

/-- A full portion is handed over before another byte is due. -/
def makeRoom (s : State) : State :=
  if s.output.size < s.handed + portion then s else s.handOver

end State

abbrev Decoder := EStateM Stop State

def bit : Decoder Nat := fun s =>
  let s := if s.position % fetchedBits = 0 then s.handOver else s
  match s.packed[s.position / 8]? with
  | some byte => .ok ((byte.toNat >>> (s.position % 8)) % 2) { s with position := s.position + 1 }
  | none => .error .truncated s.handOver

def bits : Nat → Decoder Nat
  | 0 => pure 0
  | n + 1 => do
    let low ← bit
    return low + 2 * (← bits n)

def alignToByte : Decoder Unit :=
  modify fun s => { s with position := (s.position + 7) / 8 * 8 }

def emit (byte : UInt8) : Decoder Unit := modify fun s =>
  let s := s.makeRoom
  { s with output := s.output.push byte }

/-- Repeats `count` bytes from `distance` back, which may be bytes that it has just written. -/
def copyBack (distance : Nat) : Nat → Decoder Unit
  | 0 => pure ()
  | count + 1 => do
    let output := (← get).output
    match output[output.size - distance]? with
    | some byte => emit byte
    | none => throw .corrupt
    copyBack distance count

/-- Reads a code bit by bit among the codes of the lengths that are left to try; `first` is the
first code of a length, and `index` the place of its symbol. -/
def symbolFrom (symbols : Array Nat) :
    List Nat → (code first index : Nat) → Decoder (Option Nat)
  | [], _, _, _ => pure none
  | count :: longer, code, first, index => do
    let code := 2 * code + (← bit)
    if code < first + count then return symbols[index + (code - first)]?
    else symbolFrom symbols longer code (2 * (first + count)) (index + count)

/-- The next symbol, if the code has one for the bits that follow. -/
def symbol? (h : Huffman) : Decoder (Option Nat) := symbolFrom h.symbols h.counts 0 0 0

/-- The smallest length or distance of each symbol, with the number of further bits. -/
def lengthRanges : Array (Nat × Nat) :=
  #[(3, 0), (4, 0), (5, 0), (6, 0), (7, 0), (8, 0), (9, 0), (10, 0), (11, 1), (13, 1), (15, 1),
    (17, 1), (19, 2), (23, 2), (27, 2), (31, 2), (35, 3), (43, 3), (51, 3), (59, 3), (67, 4),
    (83, 4), (99, 4), (115, 4), (131, 5), (163, 5), (195, 5), (227, 5), (258, 0)]

def distanceRanges : Array (Nat × Nat) :=
  #[(1, 0), (2, 0), (3, 0), (4, 0), (5, 1), (7, 1), (9, 2), (13, 2), (17, 3), (25, 3), (33, 4),
    (49, 4), (65, 5), (97, 5), (129, 6), (193, 6), (257, 7), (385, 7), (513, 8), (769, 8),
    (1025, 9), (1537, 9), (2049, 10), (3073, 10), (4097, 11), (6145, 11), (8193, 12),
    (12289, 12), (16385, 13), (24577, 13)]

def ranged (ranges : Array (Nat × Nat)) (symbol : Nat) : Decoder Nat :=
  match ranges[symbol]? with
  | some (smallest, extra) => do return smallest + (← bits extra)
  | none => throw .corrupt

def endOfBlock : Nat := 256

/-- Unpacks the symbols of a block.  Each takes a bit at least, so the fuel is the number of
bits. -/
def symbols (literals distances : Huffman) : (fuel : Nat) → Decoder Unit
  | 0 => throw .truncated
  | fuel + 1 => do
    match ← symbol? literals with
    | none => throw .corrupt
    | some symbol =>
      if symbol < endOfBlock then
        emit (UInt8.ofNat symbol)
        symbols literals distances fuel
      else if symbol = endOfBlock then pure ()
      else
        let length ← ranged lengthRanges (symbol - 257)
        match ← symbol? distances with
        | none => throw .corrupt
        | some symbol =>
          let distance ← ranged distanceRanges symbol
          modify State.makeRoom
          if (← get).output.size < distance then throw .corrupt
          copyBack distance length
          symbols literals distances fuel

def literalBytes : Nat → Decoder Unit
  | 0 => pure ()
  | n + 1 => do
    emit (UInt8.ofNat (← bits 8))
    literalBytes n

def storedBlock : Decoder Unit := do
  alignToByte
  let length ← bits 16
  let complement ← bits 16
  if length + complement ≠ 65535 then throw .corrupt
  literalBytes length

def required (code? : Option Huffman) : Decoder Huffman :=
  match code? with
  | some code => pure code
  | none => throw .corrupt

def fixedLiterals : List Nat :=
  List.replicate 144 8 ++ List.replicate 112 9 ++ List.replicate 24 7 ++ List.replicate 8 8

def fixedDistances : List Nat := List.replicate 32 5

/-- The order in which the lengths of the codes for code lengths are written. -/
def lengthOrder : List Nat := [16, 17, 18, 0, 8, 7, 9, 6, 10, 5, 11, 4, 12, 3, 13, 2, 14, 1, 15]

def shortLengths : Nat → Decoder (List Nat)
  | 0 => pure []
  | n + 1 => do
    let l ← bits 3
    return l :: (← shortLengths n)

/-- One entry of the list of code lengths: a length, or a run of a length. -/
def lengthRun (h : Huffman) (lengths : Array Nat) : Decoder (Array Nat) := do
  match (← symbol? h).getD 0 with
  | 16 =>
    let count := 3 + (← bits 2)
    match lengths.back? with
    | some previous => return lengths ++ Array.replicate count previous
    | none => throw .corrupt
  | 17 => return lengths ++ Array.replicate (3 + (← bits 3)) 0
  | 18 => return lengths ++ Array.replicate (11 + (← bits 7)) 0
  | length => return lengths.push length

/-- Reads `count` code lengths, each entry of which gives at least one. -/
def codeLengths (h : Huffman) (count : Nat) : (fuel : Nat) → Array Nat → Decoder (Array Nat)
  | 0, lengths => pure lengths
  | fuel + 1, lengths =>
    if lengths.size < count then do codeLengths h count fuel (← lengthRun h lengths)
    else if lengths.size = count then pure lengths
    else throw .corrupt

def describedCodes : Decoder (Huffman × Huffman) := do
  let literalCount := 257 + (← bits 5)
  let distanceCount := 1 + (← bits 5)
  let shortCount := 4 + (← bits 4)
  if 286 < literalCount ∨ 30 < distanceCount then throw .corrupt
  let short := lengthOrder.zip (← shortLengths shortCount)
  let lengthCode ← required (Huffman.ofLengths? false
    ((List.range 19).map fun symbol => (short.lookup symbol).getD 0))
  let count := literalCount + distanceCount
  let lengths := (← codeLengths lengthCode count (count + 1) #[]).toList
  if lengths[endOfBlock]?.getD 0 = 0 then throw .corrupt
  let literals ← required (Huffman.ofLengths? true (lengths.take literalCount))
  let distances ← required (Huffman.ofLengths? true (lengths.drop literalCount))
  return (literals, distances)

def block (fuel : Nat) : Decoder Bool := do
  let last ← bits 1
  match ← bits 2 with
  | 0 => storedBlock
  | 1 =>
    symbols (← required (Huffman.ofLengths? true fixedLiterals))
      (← required (Huffman.ofLengths? true fixedDistances)) fuel
  | 2 =>
    let (literals, distances) ← describedCodes
    symbols literals distances fuel
  | _ => throw .corrupt
  return last = 1

def blocks (size : Nat) : (fuel : Nat) → Decoder Unit
  | 0 => throw .truncated
  | fuel + 1 => do
    if ← block size then alignToByte else blocks size fuel

/-- Unpacks a stream.  A block, like a symbol, takes a bit at least. -/
def stream : Decoder Unit := do
  let size := 8 * (← get).packed.size + 1
  blocks size size

end Inflate
end GridOps
