import GridOps.Join.Keying
import Mathlib.Data.Nat.Digits.Defs

/-!
The 32-bit MurmurHash3 of bytes, and what it gives for keys.

The hash is defined for any bytes (`hashBytes`): each four make a word, the lowest byte first, and
up to three bytes that are left over at the end make a last word, which is mixed in another way.
The hash of a key is made of the words of its bits.  It is that of the bytes of the key in two's
complement (`murmurHash_eq_hashBytes`), which are four or eight, so that none is left over.
-/

namespace GridOps

namespace Murmur

/-! ## The hash of bytes -/

/-- A word of at most four bytes, the lowest first. -/
def word (bytes : List UInt8) : BitVec 32 :=
  BitVec.ofNat 32 (Nat.ofDigits 256 (bytes.map UInt8.toNat))

def words : List UInt8 → List (BitVec 32)
  | a :: b :: c :: d :: rest => word [a, b, c, d] :: words rest
  | _ => []

def scramble (k : BitVec 32) : BitVec 32 :=
  (k * 0xcc9e2d51#32).rotateLeft 15 * 0x1b873593#32

def absorb (h k : BitVec 32) : BitVec 32 :=
  (h ^^^ scramble k).rotateLeft 13 * 5#32 + 0xe6546b64#32

def finalize (h : BitVec 32) : BitVec 32 :=
  let h := (h ^^^ h >>> 16) * 0x85ebca6b#32
  let h := (h ^^^ h >>> 13) * 0xc2b2ae35#32
  h ^^^ h >>> 16

def hashBytes (seed : UInt32) (bytes : List UInt8) : UInt32 :=
  let h := (words bytes).foldl absorb seed.toBitVec
  let tail := bytes.drop (bytes.length / 4 * 4)
  let h := if tail.isEmpty then h else h ^^^ scramble (word tail)
  UInt32.ofBitVec (finalize (h ^^^ BitVec.ofNat 32 bytes.length))

example : hashBytes 0x5082edee [0x21, 0x43, 0x65, 0x87] = 0x2362f9de := by decide
example : hashBytes 0 [0x21, 0x43, 0x65] = 0x7e4a8634 := by decide

/-! ## Words -/

/-- The shifts of a rotation are right for every amount but none at all. -/
theorem toBitVec_rotateLeft (x : UInt32) {r : UInt32} (hpos : 0 < r.toNat) (hlt : r.toNat < 32) :
    (rotateLeft x r).toBitVec = x.toBitVec.rotateLeft r.toNat := by
  have hleft : (x <<< r).toBitVec = x.toBitVec <<< r.toNat := by
    rw [UInt32.toBitVec_shiftLeft, BitVec.shiftLeft_eq', BitVec.toNat_umod]
    exact congrArg (x.toBitVec <<< ·) (Nat.mod_eq_of_lt hlt)
  have hright : (x >>> (32 - r)).toBitVec = x.toBitVec >>> (32 - r.toNat) := by
    have hsub : (32 - r).toNat = 32 - r.toNat :=
      UInt32.toNat_sub_of_le _ _ (UInt32.le_iff_toNat_le.mpr (Nat.le_of_lt hlt))
    rw [UInt32.toBitVec_shiftRight, BitVec.ushiftRight_eq', BitVec.toNat_umod]
    refine congrArg (x.toBitVec >>> ·) ?_
    show (32 - r).toNat % 32 = _
    rw [hsub, Nat.mod_eq_of_lt (by omega)]
  rw [rotateLeft, UInt32.toBitVec_or, hleft, hright, BitVec.rotateLeft_def, Nat.mod_eq_of_lt hlt]

theorem toBitVec_mixBlock (h block : UInt32) :
    (mixBlock h block).toBitVec = absorb h.toBitVec block.toBitVec := by
  rw [mixBlock, UInt32.toBitVec_add, UInt32.toBitVec_mul,
    toBitVec_rotateLeft _ (by decide) (by decide), UInt32.toBitVec_xor, UInt32.toBitVec_mul,
    toBitVec_rotateLeft _ (by decide) (by decide), UInt32.toBitVec_mul]
  rfl

theorem toBitVec_foldl_mixBlock (blocks : List UInt32) (h : UInt32) :
    (blocks.foldl mixBlock h).toBitVec =
      (blocks.map UInt32.toBitVec).foldl absorb h.toBitVec := by
  induction blocks generalizing h with
  | nil => rfl
  | cons block rest ih =>
    rw [List.foldl_cons, ih, toBitVec_mixBlock, List.map_cons, List.foldl_cons]

theorem toBitVec_avalanche (h : UInt32) : (avalanche h).toBitVec = finalize h.toBitVec := rfl

/-- Bytes without a tail are hashed as their words are. -/
theorem hash_eq_hashBytes {seed : UInt32} {bits : UInt64} {bytes : List UInt8}
    (hfour : 4 ∣ bytes.length)
    (hwords : (blocks bytes.length bits).map UInt32.toBitVec = words bytes) :
    hash seed bytes.length bits = hashBytes seed bytes := by
  have htail : bytes.drop (bytes.length / 4 * 4) = [] := by
    rw [Nat.div_mul_cancel hfour, List.drop_length]
  refine UInt32.toBitVec_inj.mp ?_
  rw [hash, toBitVec_avalanche, UInt32.toBitVec_xor, toBitVec_foldl_mixBlock, hwords, hashBytes,
    htail]
  rfl

/-! ## The bytes of an integer -/

/-- The lowest bytes of an integer in two's complement, the lowest first. -/
def lowBytes : Nat → Int → List UInt8
  | 0, _ => []
  | count + 1, n => UInt8.ofNat (n % 256).toNat :: lowBytes count (n / 256)

theorem length_lowBytes (count : Nat) (n : Int) : (lowBytes count n).length = count := by
  induction count generalizing n with
  | zero => rfl
  | succ count ih => rw [lowBytes, List.length_cons, ih]

theorem toNat_lowByte (n : Int) : (UInt8.ofNat (n % 256).toNat).toNat = (n % 256).toNat :=
  UInt8.toNat_ofNat_of_lt' (by
    show _ < 256
    omega)

theorem word_lowBytes (n : Int) : word (lowBytes 4 n) = BitVec.ofInt 32 n := by
  refine BitVec.eq_of_toNat_eq ?_
  simp only [word, lowBytes, List.map_cons, List.map_nil, toNat_lowByte, Nat.ofDigits_cons,
    Nat.ofDigits_nil, BitVec.toNat_ofNat, BitVec.toNat_ofInt]
  omega

theorem words_lowBytes (count : Nat) (n : Int) : words (lowBytes (4 * count) n) =
    (List.range count).map fun i => BitVec.ofInt 32 (n / 2 ^ (32 * i)) := by
  induction count generalizing n with
  | zero => rfl
  | succ count ih =>
    have hbytes : words (lowBytes (4 * (count + 1)) n) = word (lowBytes 4 n) ::
        words (lowBytes (4 * count) (n / 256 / 256 / 256 / 256)) := rfl
    have hnext : n / 256 / 256 / 256 / 256 = n / 2 ^ 32 := by omega
    rw [hbytes, word_lowBytes, hnext, ih, List.range_succ_eq_map, List.map_cons, List.map_map]
    refine congrArg₂ List.cons (by rw [Nat.mul_zero, pow_zero, Int.ediv_one]) ?_
    refine List.map_congr_left fun i _ => congrArg (BitVec.ofInt 32) ?_
    rw [Int.ediv_ediv_of_nonneg (by decide), ← pow_add, Nat.mul_succ, Nat.add_comm]

end Murmur

namespace Keying

variable {K : Type} [JoinKey K]

/-- The bytes of a key: as many as its type has. -/
def keyBytes (k : K) : List UInt8 := Murmur.lowBytes (JoinKey.type K).bytes (JoinKey.toInt k)

/-- The words of the bits of a key are those of its value. -/
theorem toBitVec_bits {i : Nat} (hi : i < (JoinKey.type K).bytes / 4) (k : K) :
    ((JoinKey.bits k >>> UInt64.ofNat (32 * i)).toUInt32).toBitVec =
      BitVec.ofInt 32 (JoinKey.toInt k / 2 ^ (32 * i)) := by
  have hbits := JoinKey.bits_toNat k
  have htwo : (JoinKey.type K).bytes / 4 ≤ 2 := by cases JoinKey.type K <;> decide
  refine BitVec.eq_of_toNat_eq ?_
  rw [UInt32.toNat_toBitVec, UInt64.toNat_toUInt32, UInt64.toNat_shiftRight,
    Nat.shiftRight_eq_div_pow, BitVec.toNat_ofInt]
  -- The low word is there for every type, the high word only where the modulus is that of two.
  obtain rfl | rfl : i = 0 ∨ i = 1 := by omega
  · have hmodulus : 4294967296 ∣ (JoinKey.type K).modulus := by cases JoinKey.type K <;> decide
    have hlow := Int.emod_emod_of_dvd (JoinKey.toInt k) hmodulus
    show (JoinKey.bits k).toNat / 1 % 4294967296 = (JoinKey.toInt k / 1 % 4294967296).toNat
    omega
  · have hmodulus : (JoinKey.type K).modulus = 18446744073709551616 := by
      revert hi
      cases JoinKey.type K <;> decide
    rw [hmodulus] at hbits
    show (JoinKey.bits k).toNat / 4294967296 % 4294967296 =
      (JoinKey.toInt k / 4294967296 % 4294967296).toNat
    omega

/-- The hash of a key is the 32-bit MurmurHash3 of its bytes. -/
theorem murmurHash_eq_hashBytes (seed : UInt32) (k : K) :
    murmurHash seed k = Murmur.hashBytes seed (keyBytes k) := by
  have hbytes : (JoinKey.type K).bytes = 4 * ((JoinKey.type K).bytes / 4) := by
    cases JoinKey.type K <;> rfl
  have hlength : (keyBytes k).length = (JoinKey.type K).bytes := Murmur.length_lowBytes _ _
  have hwords : (Murmur.blocks (JoinKey.type K).bytes (JoinKey.bits k)).map UInt32.toBitVec =
      Murmur.words (keyBytes k) := by
    rw [keyBytes, hbytes, Murmur.words_lowBytes, Murmur.blocks, ← hbytes, List.map_map]
    exact List.map_congr_left fun i hi => toBitVec_bits (List.mem_range.mp hi) k
  rw [murmurHash, ← hlength]
  refine Murmur.hash_eq_hashBytes ?_ ?_
  · rw [hlength, hbytes]
    exact Nat.dvd_mul_right 4 _
  · rwa [hlength]

end Keying
end GridOps
