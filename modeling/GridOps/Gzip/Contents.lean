import GridOps.Gzip.Crc32
import GridOps.Gzip.Inflate

/-!
What a reader gets of a file that may be compressed: bytes, and whether the file really ends
after them.

A reader gets all bytes before the place where the file is cut off; but if a stream turns out to be
corrupt, only those that it had been handed before.
-/
namespace GridOps

/-- The bytes that can be read; unless `complete`, reading on after them fails. -/
structure Contents where
  bytes : List UInt8
  complete : Bool
deriving DecidableEq, Repr

namespace Gzip

/-- The longest name or comment of a file. -/
def maxText : Nat := 65535

def hasBit (byte : UInt8) (i : Nat) : Bool := byte.toNat.testBit i

def skip? (n : Nat) (bytes : List UInt8) : Option (List UInt8) :=
  if bytes.length < n then none else some (bytes.drop n)

/-- What follows a text that a zero ends. -/
def skipText? (bytes : List UInt8) : Option (List UInt8) :=
  let text := bytes.takeWhile (· ≠ 0)
  if maxText < text.length then none else skip? (text.length + 1) bytes

def number (n : Nat) (bytes : List UInt8) : Nat :=
  (bytes.take n).foldr (fun byte sum => byte.toNat + 256 * sum) 0

def skipExtra? (bytes : List UInt8) : Option (List UInt8) := do
  skip? (number 2 bytes) (← skip? 2 bytes)

/-- What follows the header, which is checked against its check word if it has one. -/
def skipHeader? (bytes : List UInt8) : Option (List UInt8) :=
  match bytes with
  | 0x1F :: 0x8B :: 8 :: flags :: _ => do
    if 32 ≤ flags then none
    let rest ← skip? 10 bytes
    let rest ← if hasBit flags 2 then skipExtra? rest else some rest
    let rest ← if hasBit flags 3 then skipText? rest else some rest
    let rest ← if hasBit flags 4 then skipText? rest else some rest
    if hasBit flags 1 then
      let header := bytes.take (bytes.length - rest.length)
      let after ← skip? 2 rest
      if number 2 rest = (Crc32.ofBytes header).toNat % UInt16.size then some after else none
    else some rest
  | _ => none

/-- Whether the check word and the length behind a stream are those of the unpacked bytes. -/
def checks (unpacked trailer : List UInt8) : Bool :=
  8 ≤ trailer.length &&
  number 4 trailer == (Crc32.ofBytes unpacked).toNat &&
  number 4 (trailer.drop 4) == unpacked.length % UInt32.size

def contents (bytes : List UInt8) : Contents :=
  match skipHeader? bytes with
  | none => ⟨[], false⟩
  | some packed =>
    let start := bytes.length - packed.length
    match Inflate.stream ⟨bytes.toArray, 8 * start, #[], 0⟩ with
    | .ok () s =>
      let unpacked := s.output.toList
      ⟨unpacked, checks unpacked (bytes.drop (s.position / 8))⟩
    | .error _ s => ⟨s.output.toList.take s.handed, false⟩

def isCompressedName (name : String) : Bool :=
  match name.toList.reverse with
  | 'z' :: 'g' :: '.' :: c :: _ => c != '/'
  | _ => false

end Gzip

def Contents.ofFile (name : String) (bytes : List UInt8) : Contents :=
  if Gzip.isCompressedName name then Gzip.contents bytes else ⟨bytes, true⟩

end GridOps
