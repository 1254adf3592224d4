/-!
Unsigned machine words of 8, 16, 32 and 64 bits, seen as the numbers below a power of two.
-/
namespace GridOps

/-- A type of unsigned words.  `ofNat` takes a number modulo the size of the type. -/
class Word (α : Type) where
  bytes : Nat
  ofNat : Nat → α
  toNat : α → Nat
  size : Nat
  size_eq : size = Nat.pow 256 bytes
  toNat_ofNat : ∀ n, toNat (ofNat n) = n % size
  ofNat_toNat : ∀ a, ofNat (toNat a) = a

namespace Word

instance : Word UInt8 where
  bytes := 1
  ofNat := UInt8.ofNat
  toNat := UInt8.toNat
  size := UInt8.size
  size_eq := rfl
  toNat_ofNat _ := UInt8.toNat_ofNat'
  ofNat_toNat _ := UInt8.ofNat_toNat

instance : Word UInt16 where
  bytes := 2
  ofNat := UInt16.ofNat
  toNat := UInt16.toNat
  size := UInt16.size
  size_eq := rfl
  toNat_ofNat _ := UInt16.toNat_ofNat'
  ofNat_toNat _ := UInt16.ofNat_toNat

instance : Word UInt32 where
  bytes := 4
  ofNat := UInt32.ofNat
  toNat := UInt32.toNat
  size := UInt32.size
  size_eq := rfl
  toNat_ofNat _ := UInt32.toNat_ofNat'
  ofNat_toNat _ := UInt32.ofNat_toNat

instance : Word UInt64 where
  bytes := 8
  ofNat := UInt64.ofNat
  toNat := UInt64.toNat
  size := UInt64.size
  size_eq := rfl
  toNat_ofNat _ := UInt64.toNat_ofNat'
  ofNat_toNat _ := UInt64.ofNat_toNat

variable {α : Type} [Word α]

def top (α : Type) [Word α] : α := ofNat (size α - 1)

def checkedAdd (a b : α) : Option α :=
  if toNat a + toNat b < size α then some (ofNat (toNat a + toNat b)) else none

theorem toNat_lt (a : α) : toNat a < size α := by
  have h := toNat_ofNat (α := α) (toNat a)
  rw [ofNat_toNat] at h
  rw [h]
  refine Nat.mod_lt _ ?_
  rw [size_eq]
  exact Nat.pow_pos (by decide)

theorem toNat_injective {a b : α} (h : toNat a = toNat b) : a = b := by
  rw [← ofNat_toNat a, ← ofNat_toNat b, h]

end Word
end GridOps
