import GridOps.Proofs.Join.HashBytes
import Mathlib.Data.FinEnum
import Mathlib.Data.Int.ModEq
import Mathlib.Data.Nat.Prime.Basic
import Mathlib.Data.Set.Function

/-!
The hash of a key is a bijection in each of its words.

Each step of the 32-bit MurmurHash3 can be undone: a rotation, a word combined with its own shift, a
product with an odd number.  So for every block of a hash, whatever the other blocks are, each value
is taken by one word (`finish_bijective`).  The keys of a type are all its words, or all pairs of
words (`exists_bits`), which gives the statement for keys (`murmurHash_bijective`).
-/

namespace GridOps

namespace Murmur

/-! ## Steps -/

/-- An odd factor has an inverse modulo a power of two. -/
theorem mul_injective {c : UInt32} (hc : c.toNat % 2 = 1) :
    Function.Injective fun x : UInt32 => x * c := by
  intro x y h
  have hmod : x.toNat * c.toNat ≡ y.toNat * c.toNat [MOD 2 ^ 32] := by
    have hnat := congrArg UInt32.toNat h
    simp only [UInt32.toNat_mul] at hnat
    exact hnat
  have hcoprime : Nat.Coprime (2 ^ 32) c.toNat :=
    Nat.Coprime.pow_left 32 (Nat.coprime_two_left.mpr (Nat.odd_iff.mpr hc))
  exact UInt32.toNat.inj
    ((Nat.ModEq.cancel_right_of_coprime hcoprime hmod).eq_of_lt_of_lt x.toNat_lt y.toNat_lt)

/-- What two words differ in would be its own shift. -/
theorem xorShift_injective {s : UInt32} (hs : 0 < s.toNat % 32) :
    Function.Injective fun x : UInt32 => x ^^^ x >>> s := by
  intro x y h
  have hxor : x ^^^ x >>> s = y ^^^ y >>> s := h
  have hshift : (x ^^^ y) >>> s = x ^^^ y := by
    refine UInt32.xor_eq_zero_iff.mp ?_
    calc (x ^^^ y) >>> s ^^^ (x ^^^ y)
        = (x ^^^ x >>> s) ^^^ (y ^^^ y >>> s) := by
          rw [UInt32.shiftRight_xor]
          ac_rfl
      _ = 0 := by rw [hxor, UInt32.xor_self]
  have hzero : (x ^^^ y).toNat = 0 := by
    have hnat := congrArg UInt32.toNat hshift
    rw [UInt32.toNat_shiftRight, Nat.shiftRight_eq_div_pow] at hnat
    by_contra hne
    have hlt := Nat.div_lt_self (Nat.pos_of_ne_zero hne) (Nat.one_lt_two_pow (Nat.ne_of_gt hs))
    omega
  exact UInt32.xor_eq_zero_iff.mp (UInt32.toNat.inj hzero)

theorem getLsbD_rotateLeft (x : BitVec 32) {r i : Nat} (hr : r < 32) (hi : i < 32) :
    (x.rotateLeft r).getLsbD ((i + r) % 32) = x.getLsbD i := by
  rw [BitVec.getLsbD_rotateLeft, Nat.mod_eq_of_lt hr]
  -- A bit that is pushed over the top comes back in at the bottom.
  by_cases hsum : i + r < 32
  · have hge : ¬ i + r < r := by omega
    simp [Nat.mod_eq_of_lt hsum, hge, hsum]
  · have hmod : (i + r) % 32 = i + r - 32 := by omega
    have hlt : i + r - 32 < r := by omega
    have hback : 32 - r + (i + r - 32) = i := by omega
    simp [hmod, hlt, hback]

theorem rotateLeft_injective {r : UInt32} (hpos : 0 < r.toNat) (hlt : r.toNat < 32) :
    Function.Injective fun x => rotateLeft x r := by
  intro x y h
  have hbits : x.toBitVec.rotateLeft r.toNat = y.toBitVec.rotateLeft r.toNat := by
    rw [← toBitVec_rotateLeft x hpos hlt, ← toBitVec_rotateLeft y hpos hlt]
    exact congrArg UInt32.toBitVec h
  refine UInt32.toBitVec_inj.mp (BitVec.eq_of_getLsbD_eq fun i hi => ?_)
  rw [← getLsbD_rotateLeft x.toBitVec hlt hi, hbits, getLsbD_rotateLeft y.toBitVec hlt hi]

theorem xor_injective (c : UInt32) : Function.Injective fun x : UInt32 => x ^^^ c :=
  fun _ _ => (UInt32.xor_left_inj c).mp

theorem add_injective (c : UInt32) : Function.Injective fun x : UInt32 => x + c :=
  fun _ _ => (UInt32.add_left_inj c).mp

theorem avalanche_injective : Function.Injective avalanche :=
  (xorShift_injective (s := 16) (by decide)).comp <|
    (mul_injective (c := 0xc2b2ae35) (by decide)).comp <|
      (xorShift_injective (s := 13) (by decide)).comp <|
        (mul_injective (c := 0x85ebca6b) (by decide)).comp
          (xorShift_injective (s := 16) (by decide))

/-- A block is mixed into the state by steps of both. -/
theorem mixBlock_injective_left (block : UInt32) : Function.Injective fun h => mixBlock h block :=
  (add_injective _).comp <| (mul_injective (c := 5) (by decide)).comp <|
    (rotateLeft_injective (r := 13) (by decide) (by decide)).comp (xor_injective _)

theorem mixBlock_injective_right (h : UInt32) :
    Function.Injective fun block => mixBlock h block := by
  have hscramble : Function.Injective fun block : UInt32 =>
      rotateLeft (block * 0xcc9e2d51) 15 * 0x1b873593 :=
    (mul_injective (by decide)).comp <|
      (rotateLeft_injective (by decide) (by decide)).comp (mul_injective (by decide))
  have hxor : Function.Injective fun k : UInt32 => h ^^^ k := fun _ _ => (UInt32.xor_right_inj h).mp
  exact (add_injective _).comp <| (mul_injective (c := 5) (by decide)).comp <|
    (rotateLeft_injective (r := 13) (by decide) (by decide)).comp <| hxor.comp hscramble

/-! ## Blocks -/

theorem foldl_mixBlock_injective (blocks : List UInt32) :
    Function.Injective fun h => blocks.foldl mixBlock h := by
  induction blocks with
  | nil => exact Function.injective_id
  | cons block rest ih => exact ih.comp (mixBlock_injective_left block)

theorem blocks_four (bits : UInt64) : blocks 4 bits = [bits.toUInt32] := by
  show [(bits >>> 0).toUInt32] = _
  rw [UInt64.shiftRight_zero]

theorem blocks_eight (bits : UInt64) :
    blocks 8 bits = [bits.toUInt32, (bits >>> 32).toUInt32] := by
  show [(bits >>> 0).toUInt32, (bits >>> 32).toUInt32] = _
  rw [UInt64.shiftRight_zero]

/-- The hash takes every value once for one block, whatever the blocks around it are. -/
theorem finish_bijective (seed length : UInt32) (before after : List UInt32) :
    Function.Bijective fun block =>
      avalanche ((before ++ block :: after).foldl mixBlock seed ^^^ length) := by
  refine Finite.injective_iff_bijective.mp
    (avalanche_injective.comp ((xor_injective length).comp ?_))
  intro x y h
  simp only [List.foldl_append, List.foldl_cons] at h
  exact mixBlock_injective_right _ (foldl_mixBlock_injective after h)

end Murmur

theorem KeyType.modulus_eq (t : KeyType) : t.modulus = t.largest - t.lowest + 1 := by
  cases t <;> rfl

theorem KeyType.modulus_eq_pow (t : KeyType) : t.modulus = 2 ^ (8 * t.bytes) := by
  cases t <;> rfl

theorem KeyType.largest_nonneg (t : KeyType) : 0 ≤ t.largest := by
  cases t <;> decide

namespace JoinKey

variable {K : Type} [JoinKey K]

/-! ## The bits of keys -/

theorem bits_injective : Function.Injective (bits : K → UInt64) := by
  intro a b h
  have hmod : (type K).modulus ∣ toInt a - toInt b :=
    Int.ModEq.dvd (show _ % _ = _ % _ by rw [← bits_toNat a, ← bits_toNat b, h])
  have hrange := (type K).modulus_eq
  have hclose : |toInt a - toInt b| < (type K).modulus := by
    have hla := lowest_le a
    have hlb := lowest_le b
    have hua := le_largest a
    have hub := le_largest b
    rw [abs_lt]
    omega
  have hzero := Int.eq_zero_of_abs_lt_dvd hmod hclose
  exact toInt_injective (by omega)

/-- Every number below the modulus of the type is the bits of a key.  The upper ones are
negative. -/
theorem exists_bits {n : Nat} (hn : (n : Int) < (type K).modulus) :
    ∃ k : K, (bits k).toNat = n := by
  have hrange := (type K).modulus_eq
  have hlowest := (type K).lowest_le_zero
  have hlargest := (type K).largest_nonneg
  by_cases hle : (n : Int) ≤ (type K).largest
  · have hk := bits_toNat (ofInt n : K)
    rw [toInt_ofInt n (by omega) hle, Int.emod_eq_of_lt (by omega) hn] at hk
    exact ⟨_, by exact_mod_cast hk⟩
  · have hk := bits_toNat (ofInt (n - (type K).modulus) : K)
    rw [toInt_ofInt _ (by omega) (by omega), Int.sub_emod_right,
      Int.emod_eq_of_lt (by omega) hn] at hk
    exact ⟨_, by exact_mod_cast hk⟩

/-- The keys of one word are the words. -/
theorem toUInt32_bits_bijective (hbytes : (type K).bytes = 4) :
    Function.Bijective fun k : K => (bits k).toUInt32 := by
  have hmodulus : (type K).modulus = 4294967296 := by
    rw [KeyType.modulus_eq_pow, hbytes]
    rfl
  constructor
  · intro a b h
    have ha := bits_toNat a
    have hb := bits_toNat b
    have hnat := congrArg UInt32.toNat h
    simp only [UInt64.toNat_toUInt32] at hnat
    rw [hmodulus] at ha hb
    refine bits_injective (UInt64.toNat.inj ?_)
    omega
  · intro w
    have hw := w.toNat_lt
    obtain ⟨k, hk⟩ := exists_bits (K := K) (n := w.toNat) (by omega)
    refine ⟨k, UInt32.toNat.inj ?_⟩
    rw [UInt64.toNat_toUInt32, hk, Nat.mod_eq_of_lt hw]

/-- The keys of two words are the pairs of words. -/
theorem halves_bijective (hbytes : (type K).bytes = 8) :
    Function.Bijective fun k : K => ((bits k >>> 32).toUInt32, (bits k).toUInt32) := by
  have hmodulus : (type K).modulus = 18446744073709551616 := by
    rw [KeyType.modulus_eq_pow, hbytes]
    rfl
  have hhigh : ∀ b : UInt64, (b >>> 32).toUInt32.toNat = b.toNat / 4294967296 % 4294967296 := by
    intro b
    rw [UInt64.toNat_toUInt32, UInt64.toNat_shiftRight]
    exact congrArg (· % 4294967296) (Nat.shiftRight_eq_div_pow _ _)
  constructor
  · intro a b h
    obtain ⟨hh, hl⟩ := Prod.mk.inj h
    have hh' := congrArg UInt32.toNat hh
    have hl' := congrArg UInt32.toNat hl
    have ha := (bits a).toNat_lt
    have hb := (bits b).toNat_lt
    rw [hhigh, hhigh] at hh'
    rw [UInt64.toNat_toUInt32, UInt64.toNat_toUInt32] at hl'
    refine bits_injective (UInt64.toNat.inj ?_)
    omega
  · rintro ⟨high, low⟩
    have hh := high.toNat_lt
    have hl := low.toNat_lt
    obtain ⟨k, hk⟩ := exists_bits (K := K) (n := high.toNat * 4294967296 + low.toNat) (by omega)
    refine ⟨k, congrArg₂ Prod.mk (UInt32.toNat.inj ?_) (UInt32.toNat.inj ?_)⟩
    · rw [hhigh, hk]
      omega
    · rw [UInt64.toNat_toUInt32, hk]
      omega

end JoinKey

namespace Keying

variable {K : Type} [JoinKey K]

/-- A function of a pair that is a bijection in the second part is one where the first is fixed. -/
theorem bijOn_fibre {α β γ δ : Type} {f : α → β} {g : α → γ} {F : β → γ → δ}
    (hpair : Function.Bijective fun a => (f a, g a)) {b : β} (hF : Function.Bijective (F b)) :
    Set.BijOn (fun a => F (f a) (g a)) {a | f a = b} Set.univ := by
  refine ⟨fun a _ => Set.mem_univ _, fun a ha a' ha' h => ?_, fun d _ => ?_⟩
  · obtain rfl : f a = b := ha
    have hfst : f a' = f a := ha'
    have hsnd : F (f a) (g a) = F (f a') (g a') := h
    rw [hfst] at hsnd
    exact hpair.injective (congrArg₂ Prod.mk hfst.symm (hF.injective hsnd))
  · obtain ⟨c, rfl⟩ := hF.surjective d
    obtain ⟨a, ha⟩ := hpair.surjective (b, c)
    obtain ⟨rfl, rfl⟩ := Prod.mk.inj ha
    exact ⟨a, rfl, rfl⟩

/-- The hash of keys of 32 bits is a bijection.  For keys of 64 bits it is one in either half, if
the other half is fixed. -/
theorem murmurHash_bijective (seed : UInt32) :
    ((JoinKey.type K).bytes = 4 → Function.Bijective (murmurHash seed : K → UInt32)) ∧
    ((JoinKey.type K).bytes = 8 →
      (Function.Bijective fun k : K =>
        ((JoinKey.bits k >>> 32).toUInt32, (JoinKey.bits k).toUInt32)) ∧
      (∀ low : UInt32, Set.BijOn (murmurHash seed)
        {k : K | (JoinKey.bits k).toUInt32 = low} Set.univ) ∧
      ∀ high : UInt32, Set.BijOn (murmurHash seed)
        {k : K | (JoinKey.bits k >>> 32).toUInt32 = high} Set.univ) := by
  refine ⟨fun hbytes => ?_, fun hbytes => ?_⟩
  · have hhash : (murmurHash seed : K → UInt32) =
        (fun block => Murmur.avalanche ([block].foldl Murmur.mixBlock seed ^^^ 4)) ∘
          fun k : K => (JoinKey.bits k).toUInt32 := by
      funext k
      rw [murmurHash, hbytes, Murmur.hash, Murmur.blocks_four]
      rfl
    rw [hhash]
    exact (Murmur.finish_bijective seed 4 [] []).comp (JoinKey.toUInt32_bits_bijective hbytes)
  · have hhash : (murmurHash seed : K → UInt32) = fun k : K =>
        Murmur.avalanche ([(JoinKey.bits k).toUInt32, (JoinKey.bits k >>> 32).toUInt32].foldl
          Murmur.mixBlock seed ^^^ 8) := by
      funext k
      rw [murmurHash, hbytes, Murmur.hash, Murmur.blocks_eight]
      rfl
    have hhalves := JoinKey.halves_bijective (K := K) hbytes
    rw [hhash]
    refine ⟨hhalves, fun low => ?_, fun high => ?_⟩
    · exact bijOn_fibre (F := fun l h => Murmur.avalanche ([l, h].foldl Murmur.mixBlock seed ^^^ 8))
        (Prod.swap_bijective.comp hhalves) (Murmur.finish_bijective seed 8 [low] [])
    · exact bijOn_fibre (F := fun h l => Murmur.avalanche ([l, h].foldl Murmur.mixBlock seed ^^^ 8))
        hhalves (Murmur.finish_bijective seed 8 [] [high])

/-- Signed keys of 32 bits, and those keys of 64 bits that end in 7. -/
theorem murmurHash_bijective_words :
    (JoinKey.type Int32).bytes = 4 ∧ Function.Bijective (murmurHash 42 : Int32 → UInt32) ∧
      (JoinKey.type UInt64).bytes = 8 ∧
      Set.BijOn (murmurHash 42) {k : UInt64 | (JoinKey.bits k).toUInt32 = 7} Set.univ :=
  ⟨rfl, (murmurHash_bijective 42).1 rfl, rfl, ((murmurHash_bijective 42).2 rfl).2.1 7⟩

end Keying
end GridOps
