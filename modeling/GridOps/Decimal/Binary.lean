/-!
Binary floating point numbers of 64 bits as exact fractions.

A finite number other than zero is a mantissa below `2 ^ 53` times a power of two that is not
below `2 ^ -1074`; its bits hold the two one after the other.
-/
namespace GridOps

/-- The number `mantissa * 2 ^ exponent`. -/
structure Binary where
  mantissa : Nat
  exponent : Int
deriving DecidableEq, Repr

namespace Binary

/-- The mantissa from which on the exponent counts. -/
def full : Nat := 4503599627370496

def signBit : Nat := 9223372036854775808

def lowest : Int := -1074

/-- The nearest whole number to `n / d`, and of two the even one. -/
def roundDiv (n d : Nat) : Nat :=
  let q := n / d
  let r := n % d
  if 2 * r < d ∨ (2 * r = d ∧ q % 2 = 0) then q else q + 1

/-- The nearest whole number to `n / d * 2 ^ -exponent`. -/
def scaled (n d : Nat) (exponent : Int) : Nat :=
  roundDiv (n <<< (-exponent).toNat) (d <<< exponent.toNat)

/-- The exponent at which the mantissa of `n / d` has 53 bits, if that is not too low. -/
def exponentOf (n d : Nat) : Int :=
  let e := max lowest ((n.log2 : Int) - d.log2 - 53)
  if 2 * full ≤ (n <<< (-e).toNat) / (d <<< e.toNat) then e + 1 else e

def infinityBits : Nat := 2047 * full

/-- The bits of the number nearest to `n / d`.  A mantissa that rounding takes to `2 ^ 53` carries
into the exponent. -/
def nearestBits (n d : Nat) : Nat :=
  let e := exponentOf n d
  let m := scaled n d e
  min infinityBits (if m < full then m else (e - lowest).toNat * full + m)

def ofBits (bits : Nat) : Binary :=
  let field := bits / full % 2048
  if field = 0 then ⟨bits % full, lowest⟩ else ⟨full + bits % full, lowest + (field - 1 : Nat)⟩

end Binary
end GridOps
