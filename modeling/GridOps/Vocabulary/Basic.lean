/-!
A vocabulary of word pieces as a two-level perfect hash table.

A piece has a 48-bit key.  An outer hash function takes the key to a bin, and the bin's own hash
function takes it to one of the bin's slots in a common table.  A slot holds a key and a token.
-/
namespace GridOps

/-- A bin's hash parameters and size, packed into one word, and the place of its first slot. -/
structure VocabularyBin where
  coefficient : UInt64
  offset : UInt64
deriving DecidableEq, Repr

structure Vocabulary where
  outerA : UInt64
  outerB : UInt64
  bins : Array VocabularyBin
  table : Array UInt64
  unknownId : UInt32
  classId : UInt32
  separatorId : UInt32
deriving DecidableEq, Repr

namespace Vocabulary

def sdbmStep (hash : UInt64) (c : Char) : UInt64 :=
  c.toNat.toUInt64 + (hash <<< 6) + (hash <<< 16) - hash

def sdbm (state : UInt64) (cs : List Char) : UInt64 := cs.foldl sdbmStep state

def keyMask : UInt64 := 0xFFFFFFFFFFFF

def hashToken (cs : List Char) : UInt64 := sdbm 0 cs &&& keyMask

/-- What a piece that continues a word is written with. -/
def continuationMark : List Char := ['#', '#']

def hashPrime : UInt64 := 281474976710677

/-- The hash function with parameters `a` and `b` into a range of `size` numbers. -/
def universalHash (a b key size : UInt64) : UInt64 := (a * key + b) % hashPrime % size

/-- `universalHash` into a range that may be empty. -/
def universalHash? (a b key size : UInt64) : Option UInt64 :=
  if size = 0 then none else some (universalHash a b key size)

end Vocabulary

namespace VocabularyBin

def size (b : VocabularyBin) : UInt64 := b.coefficient &&& 0x1FF

def innerA (b : VocabularyBin) : UInt64 := b.coefficient >>> 16

def innerB (b : VocabularyBin) : UInt64 := (b.coefficient >>> 9) &&& 0x7F

def slot (b : VocabularyBin) (key : UInt64) : UInt64 :=
  b.offset + Vocabulary.universalHash b.innerA b.innerB key b.size

end VocabularyBin

namespace Vocabulary

def binOf (v : Vocabulary) (key : UInt64) : Nat :=
  (universalHash v.outerA v.outerB key (UInt64.ofNat v.bins.size)).toNat

def slotOf? (v : Vocabulary) (key : UInt64) : Option Nat := do
  let bin ← v.bins[v.binOf key]?
  if bin.size = 0 then none else some (bin.slot key).toNat

def lookup (v : Vocabulary) (key : UInt64) : Option UInt32 := do
  let entry ← v.table[← v.slotOf? key]?
  if entry >>> 16 = key then some (entry &&& 0xFFFF).toUInt32 else none

/-- The token of a piece, written without its mark. -/
def lookupPiece (v : Vocabulary) (piece : List Char) (continuation : Bool) : Option UInt32 :=
  let state := if continuation then sdbm 0 continuationMark else 0
  v.lookup (sdbm state piece &&& keyMask)

def words (v : Vocabulary) : Nat := v.table.size + 2 * v.bins.size

end Vocabulary
end GridOps
