/-!
The integer types that columns and join keys have, and the keys as elements of such a type.

The largest value of a key type is reserved: it marks an empty slot of a hash table, so no
generator produces it.
-/
namespace GridOps

inductive KeyType
  | i32
  | i64
  | u32
  | u64
deriving DecidableEq, Repr

namespace KeyType

def bytes : KeyType → Nat
  | i32 | u32 => 4
  | i64 | u64 => 8

def lowest : KeyType → Int
  | i32 => -2147483648
  | i64 => -9223372036854775808
  | u32 | u64 => 0

def largest : KeyType → Int
  | i32 => 2147483647
  | i64 => 9223372036854775807
  | u32 => 4294967295
  | u64 => 18446744073709551615

def modulus : KeyType → Int
  | i32 | u32 => 4294967296
  | i64 | u64 => 18446744073709551616

/-- The largest value that is not reserved. -/
def largestKey (t : KeyType) : Nat := (t.largest - 1).toNat

theorem largestKey_lt (t : KeyType) : (t.largestKey : Int) < t.largest := by
  cases t <;> decide

theorem lowest_le_zero (t : KeyType) : t.lowest ≤ 0 := by
  cases t <;> decide

def name : KeyType → String
  | i32 => "i32"
  | i64 => "i64"
  | u32 => "u32"
  | u64 => "u64"

end KeyType

/-- A type of join keys: the integers of a key type. -/
class JoinKey (K : Type) where
  decEq : DecidableEq K
  type : KeyType
  toInt : K → Int
  ofInt : Int → K
  /-- The key in two's complement, filled up with zeros to 64 bits. -/
  bits : K → UInt64
  lowest_le : ∀ k, type.lowest ≤ toInt k
  le_largest : ∀ k, toInt k ≤ type.largest
  ofInt_toInt : ∀ k, ofInt (toInt k) = k
  toInt_ofInt : ∀ n, type.lowest ≤ n → n ≤ type.largest → toInt (ofInt n) = n
  bits_toNat : ∀ k, ((bits k).toNat : Int) = toInt k % type.modulus

namespace JoinKey

instance {K : Type} [JoinKey K] : DecidableEq K := decEq

variable {K : Type} [JoinKey K]

/-- The key that marks an empty slot. -/
def reserved (K : Type) [JoinKey K] : K := ofInt (type K).largest

/-- The key with value `n`, unless that is reserved or outside the type. -/
def ofNat? (n : Nat) : Option K :=
  if n ≤ (type K).largestKey then some (ofInt n) else none

theorem toInt_injective {a b : K} (h : toInt a = toInt b) : a = b := by
  rw [← ofInt_toInt a, ← ofInt_toInt b, h]

theorem toInt_reserved : toInt (reserved K) = (type K).largest :=
  toInt_ofInt _ (by cases type K <;> decide) (Int.le_refl _)

theorem toInt_ofNat {n : Nat} (h : n ≤ (type K).largestKey) : toInt (ofInt n : K) = n := by
  have hlargest := (type K).largestKey_lt
  have hlowest := (type K).lowest_le_zero
  exact toInt_ofInt _ (by omega) (by omega)

theorem ofNat_inj {m n : Nat} (hm : m ≤ (type K).largestKey) (hn : n ≤ (type K).largestKey) :
    (ofInt m : K) = ofInt n ↔ m = n := by
  constructor
  · intro h
    have hint := congrArg toInt h
    rw [toInt_ofNat hm, toInt_ofNat hn] at hint
    omega
  · rintro rfl
    rfl

theorem ofNat_ne_reserved {n : Nat} (h : n ≤ (type K).largestKey) : (ofInt n : K) ≠ reserved K := by
  intro heq
  have hint := congrArg toInt heq
  have hlargest := (type K).largestKey_lt
  rw [toInt_ofNat h, toInt_reserved] at hint
  omega

instance : JoinKey Int32 where
  decEq := inferInstance
  type := .i32
  toInt := Int32.toInt
  ofInt := Int32.ofInt
  bits k := k.toUInt32.toUInt64
  lowest_le := Int32.le_toInt
  le_largest k := Int.le_sub_one_of_lt k.toInt_lt
  ofInt_toInt := Int32.ofInt_toInt
  toInt_ofInt _ lo hi := Int32.toInt_ofInt_of_le lo (Int.lt_of_le_sub_one hi)
  bits_toNat k := by
    have lt := k.toBitVec.isLt
    have h : (k.toUInt32.toNat : Int) = k.toInt % 4294967296 := by
      rw [← UInt32.toNat_toBitVec, Int32.toBitVec_toUInt32, ← Int32.toInt_toBitVec,
        BitVec.toInt_eq_toNat_bmod]
      rw [Int.bmod_def]
      split <;> omega
    simpa only [UInt32.toNat_toUInt64, KeyType.modulus] using h

instance : JoinKey Int64 where
  decEq := inferInstance
  type := .i64
  toInt := Int64.toInt
  ofInt := Int64.ofInt
  bits k := k.toUInt64
  lowest_le := Int64.le_toInt
  le_largest k := Int.le_sub_one_of_lt k.toInt_lt
  ofInt_toInt := Int64.ofInt_toInt
  toInt_ofInt _ lo hi := Int64.toInt_ofInt_of_le lo (Int.lt_of_le_sub_one hi)
  bits_toNat k := by
    have lt := k.toBitVec.isLt
    have h : (k.toUInt64.toNat : Int) = k.toInt % 18446744073709551616 := by
      rw [← UInt64.toNat_toBitVec, Int64.toBitVec_toUInt64, ← Int64.toInt_toBitVec,
        BitVec.toInt_eq_toNat_bmod]
      rw [Int.bmod_def]
      split <;> omega
    simpa only [UInt32.toNat_toUInt64, KeyType.modulus] using h

instance : JoinKey UInt32 where
  decEq := inferInstance
  type := .u32
  toInt k := k.toNat
  ofInt n := UInt32.ofNat (n % 4294967296).toNat
  bits k := k.toUInt64
  lowest_le k := Int.natCast_nonneg k.toNat
  le_largest k := by
    have := k.toNat_lt
    simp only [KeyType.largest]
    omega
  ofInt_toInt k := by
    have h : ((k.toNat : Int) % 4294967296).toNat = k.toNat := by
      have := k.toNat_lt
      omega
    rw [h, UInt32.ofNat_toNat]
  toInt_ofInt n lo hi := by
    simp only [KeyType.lowest, KeyType.largest] at lo hi
    rw [UInt32.toNat_ofNat']
    omega
  bits_toNat k := by
    have := k.toNat_lt
    simp only [UInt32.toNat_toUInt64, KeyType.modulus]
    omega

instance : JoinKey UInt64 where
  decEq := inferInstance
  type := .u64
  toInt k := k.toNat
  ofInt n := UInt64.ofNat (n % 18446744073709551616).toNat
  bits k := k
  lowest_le k := Int.natCast_nonneg k.toNat
  le_largest k := by
    have := k.toNat_lt
    simp only [KeyType.largest]
    omega
  ofInt_toInt k := by
    have h : ((k.toNat : Int) % 18446744073709551616).toNat = k.toNat := by
      have := k.toNat_lt
      omega
    rw [h, UInt64.ofNat_toNat]
  toInt_ofInt n lo hi := by
    simp only [KeyType.lowest, KeyType.largest] at lo hi
    rw [UInt64.toNat_ofNat']
    omega
  bits_toNat k := by
    have := k.toNat_lt
    simp only [KeyType.modulus]
    omega

end JoinKey
end GridOps
