import GridOps.Vocabulary.Basic
import Mathlib.Algebra.BigOperators.Fin
import Mathlib.Data.Int.ModEq
import Mathlib.Tactic.Ring

/-!
The hash of a token is a polynomial in its characters.

A step multiplies the state by 65599 and adds the character (`toNat_sdbmStep`), so the state after
some characters is a polynomial of degree their number, modulo `2 ^ 64` (`toNat_sdbm`).  The key of
a token takes the lowest 48 bits of the last state.  These depend on the lowest 48 bits of the
states before only (`sdbm_congr`), and the characters of a mark can be hashed ahead of a piece
(`lookupPiece_eq`).
-/

namespace GridOps
namespace Vocabulary

/-- A state and the characters behind it as the coefficients of powers of 65599.  The last character
has the power zero. -/
def polynomial (h : Nat) (cs : List Char) : Nat :=
  h * 65599 ^ cs.length + ∑ i : Fin cs.length, cs[i].toNat * 65599 ^ (cs.length - 1 - i)

@[simp] theorem polynomial_nil (h : Nat) : polynomial h [] = h := by
  simp [polynomial]

/-- Horner's rule. -/
theorem polynomial_cons (h : Nat) (c : Char) (cs : List Char) :
    polynomial h (c :: cs) = polynomial (h * 65599 + c.toNat) cs := by
  have hsum : ∑ i : Fin (cs.length + 1), (c :: cs)[i].toNat * 65599 ^ (cs.length + 1 - 1 - i) =
      c.toNat * 65599 ^ cs.length +
        ∑ i : Fin cs.length, cs[i].toNat * 65599 ^ (cs.length - 1 - i) := by
    rw [Fin.sum_univ_succ]
    refine congrArg₂ (· + ·) rfl (Finset.sum_congr rfl fun i _ => ?_)
    have hpower : cs.length + 1 - 1 - (i.succ : Nat) = cs.length - 1 - i := by
      rw [Fin.val_succ]
      omega
    rw [hpower]
    rfl
  show h * 65599 ^ (cs.length + 1) + ∑ i : Fin (cs.length + 1),
    (c :: cs)[i].toNat * 65599 ^ (cs.length + 1 - 1 - i) = _
  rw [hsum, polynomial]
  ring

/-- A modulus of the state is one of the polynomial. -/
theorem polynomial_congr {m h h' : Nat} (hh : h ≡ h' [MOD m]) (cs : List Char) :
    polynomial h cs ≡ polynomial h' cs [MOD m] :=
  (hh.mul_right _).add_right _

/-! ## States -/

/-- The two shifts and the difference multiply the state by `2 ^ 6 + 2 ^ 16 - 1`. -/
theorem toNat_sdbmStep (h : UInt64) (c : Char) :
    (sdbmStep h c).toNat = (h.toNat * 65599 + c.toNat) % 2 ^ 64 := by
  have hstate := h.toNat_lt
  have hsix : (h <<< 6).toNat = h.toNat * 2 ^ 6 % 2 ^ 64 := by
    rw [UInt64.toNat_shiftLeft, ← Nat.shiftLeft_eq]
    rfl
  have hsixteen : (h <<< 16).toNat = h.toNat * 2 ^ 16 % 2 ^ 64 := by
    rw [UInt64.toNat_shiftLeft, ← Nat.shiftLeft_eq]
    rfl
  have hchar : c.toNat.toUInt64.toNat = c.toNat % 2 ^ 64 := rfl
  rw [sdbmStep, UInt64.toNat_sub, UInt64.toNat_add, UInt64.toNat_add, hsix, hsixteen, hchar]
  omega

theorem sdbm_cons (h : UInt64) (c : Char) (cs : List Char) :
    sdbm h (c :: cs) = sdbm (sdbmStep h c) cs :=
  List.foldl_cons ..

theorem sdbm_append (h : UInt64) (cs ds : List Char) : sdbm h (cs ++ ds) = sdbm (sdbm h cs) ds :=
  List.foldl_append

theorem toNat_sdbm (h : UInt64) (cs : List Char) :
    (sdbm h cs).toNat = polynomial h.toNat cs % 2 ^ 64 := by
  induction cs generalizing h with
  | nil =>
    rw [polynomial_nil, Nat.mod_eq_of_lt h.toNat_lt]
    rfl
  | cons c cs ih =>
    have hstep : (sdbmStep h c).toNat ≡ h.toNat * 65599 + c.toNat [MOD 2 ^ 64] := by
      rw [toNat_sdbmStep]
      exact Nat.mod_modEq _ _
    rw [sdbm_cons, ih, polynomial_cons]
    exact polynomial_congr hstep cs

/-! ## Keys -/

theorem toNat_key (h : UInt64) : (h &&& keyMask).toNat = h.toNat % 2 ^ 48 := by
  rw [UInt64.toNat_and]
  exact Nat.and_two_pow_sub_one_eq_mod _ 48

theorem key_eq_iff {h h' : UInt64} :
    h &&& keyMask = h' &&& keyMask ↔ h.toNat ≡ h'.toNat [MOD 2 ^ 48] := by
  rw [← UInt64.toNat_inj, toNat_key, toNat_key]
  rfl

theorem toNat_sdbm_key (h : UInt64) (cs : List Char) :
    (sdbm h cs &&& keyMask).toNat = polynomial h.toNat cs % 2 ^ 48 := by
  rw [toNat_key, toNat_sdbm, Nat.mod_mod_of_dvd _ (by decide)]

/-- What states have in common in their lowest 48 bits stays so. -/
theorem sdbm_congr {h h' : UInt64} (hh : h &&& keyMask = h' &&& keyMask) (cs : List Char) :
    sdbm h cs &&& keyMask = sdbm h' cs &&& keyMask := by
  refine UInt64.toNat.inj ?_
  rw [toNat_sdbm_key, toNat_sdbm_key]
  exact polynomial_congr (key_eq_iff.mp hh) cs

/-- A piece is looked up under the key that it has with its mark. -/
theorem lookupPiece_eq (v : Vocabulary) (piece : List Char) (continuation : Bool) :
    v.lookupPiece piece continuation =
      v.lookup (hashToken ((if continuation then "##".toList else []) ++ piece)) := by
  cases continuation with
  | false => rfl
  | true =>
    rw [if_pos rfl, hashToken, sdbm_append]
    rfl

/-- The hash of characters from any state is a polynomial modulo `2 ^ 64`.  The key of a token is
its polynomial modulo `2 ^ 48`, and any state with the lowest 48 bits of a state on the way leads to
the same key.  A piece has the key of the token that is written for it. -/
theorem sdbm_polynomial (v : Vocabulary) :
    (∀ (h : UInt64) (cs : List Char), (sdbm h cs).toNat = (h.toNat * 65599 ^ cs.length +
      ∑ i : Fin cs.length, cs[i].toNat * 65599 ^ (cs.length - 1 - i)) % 2 ^ 64) ∧
    (∀ (h : UInt64) (cs ds : List Char), h.toNat % 2 ^ 48 = (sdbm 0 cs).toNat % 2 ^ 48 →
      (hashToken (cs ++ ds)).toNat = (sdbm h ds).toNat % 2 ^ 48) ∧
    (∀ cs : List Char, (hashToken cs).toNat =
      (∑ i : Fin cs.length, cs[i].toNat * 65599 ^ (cs.length - 1 - i)) % 2 ^ 48) ∧
    ∀ (piece : List Char) (continuation : Bool), v.lookupPiece piece continuation =
      v.lookup (hashToken ((if continuation then "##".toList else []) ++ piece)) := by
  refine ⟨toNat_sdbm, fun h cs ds hh => ?_, fun cs => ?_, lookupPiece_eq v⟩
  · rw [hashToken, sdbm_append, ← sdbm_congr (key_eq_iff.mpr hh) ds, toNat_key]
  · have hzero := toNat_sdbm_key 0 cs
    rwa [polynomial, UInt64.toNat_zero, Nat.zero_mul, Nat.zero_add] at hzero

/-- The state behind the mark, with a bit above the key's, gives the key of a marked piece too. -/
theorem sdbm_polynomial_marked :
    (281474979006656 : UInt64) ≠ sdbm 0 "##".toList ∧
      (hashToken ("##".toList ++ "ing".toList)).toNat =
        (sdbm 281474979006656 "ing".toList).toNat % 2 ^ 48 :=
  ⟨by decide, (sdbm_polynomial ⟨1, 0, #[], #[], 1, 2, 3⟩).2.1 _ _ _ (by decide)⟩

end Vocabulary
end GridOps
