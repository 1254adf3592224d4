import GridOps.Key

/-!
How a join hashes its keys and when it takes two keys for the same.
-/
namespace GridOps

/-- A hash function and an equality on keys.  A join finds a match only under an equal hash. -/
structure Keying (K : Type) where
  hash : K → UInt32
  equal : K → K → Bool

/-! ## The 32-bit MurmurHash3 -/

namespace Murmur

def rotateLeft (x : UInt32) (r : UInt32) : UInt32 := (x <<< r) ||| (x >>> (32 - r))

def mixBlock (h block : UInt32) : UInt32 :=
  rotateLeft (h ^^^ rotateLeft (block * 0xcc9e2d51) 15 * 0x1b873593) 13 * 5 + 0xe6546b64

/-- Makes every bit of the result depend on every bit of `h`. -/
def avalanche (h : UInt32) : UInt32 :=
  let h := (h ^^^ (h >>> 16)) * 0x85ebca6b
  let h := (h ^^^ (h >>> 13)) * 0xc2b2ae35
  h ^^^ (h >>> 16)

def blocks (bytes : Nat) (bits : UInt64) : List UInt32 :=
  (List.range (bytes / 4)).map fun i => (bits >>> UInt64.ofNat (32 * i)).toUInt32

def hash (seed : UInt32) (bytes : Nat) (bits : UInt64) : UInt32 :=
  avalanche ((blocks bytes bits).foldl mixBlock seed ^^^ UInt32.ofNat bytes)

end Murmur

namespace Keying

variable {K : Type} [JoinKey K]

def murmurHash (seed : UInt32) (key : K) : UInt32 :=
  Murmur.hash seed (JoinKey.type K).bytes (JoinKey.bits key)

def identityHash (key : K) : UInt32 := (JoinKey.bits key).toUInt32

def sameKey (a b : K) : Bool := decide (a = b)

/-- Keys are equal when their low `n` bits agree. -/
def sameLowBits (n : Nat) (a b : K) : Bool :=
  (JoinKey.bits a).toNat % Nat.pow 2 n == (JoinKey.bits b).toNat % Nat.pow 2 n

/-- The keying of a join that names none. -/
def default : Keying K := ⟨murmurHash 0, sameKey⟩

def Lawful (keying : Keying K) : Prop :=
  ∀ a b, keying.equal a b = true → keying.hash a = keying.hash b

end Keying
end GridOps
