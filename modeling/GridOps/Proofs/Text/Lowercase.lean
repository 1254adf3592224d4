import GridOps.Text.Lowercase

/-!
Lower case letters stay as they are.

The letters that a run gives lie in the range of no other run, or at the places between its letters
(`runs_apart`), so the lower case of a letter is its own lower case (`lower_of_mem`).  A letter that
is not kept is replaced by one outside the ranges of `gaps` (`eq_or_free_of_mem_lower`).
-/

namespace GridOps
namespace Lowercase

namespace Run

/-- What `r` replaces character `n` by. -/
def letter (r : Run) (n : Nat) : Nat := r.target + (n - r.first)

/-- No letter of `r` lies from `first` to `last`. -/
def misses (r : Run) (first last : Nat) : Bool := (r.letter r.last).blt first || last.blt r.target

/-- No letter of `r` is covered by `r'`: it lies elsewhere, or between the places that `r'`
covers. -/
def apart (r r' : Run) : Bool :=
  r.misses r'.first r'.last ||
    ((r.first == r.last || r.step == r'.step) && r.target % r'.step != r'.first % r'.step)

variable {r r' : Run} {n : Nat}

theorem covers_eq_true : r.covers n = true ↔
    r.first ≤ n ∧ n ≤ r.last ∧ (n - r.first) % r.step = 0 := by
  simp [covers, and_assoc]

theorem letter_le (h : r.covers n = true) :
    r.target ≤ r.letter n ∧ r.letter n ≤ r.letter r.last := by
  obtain ⟨-, hlast, -⟩ := covers_eq_true.mp h
  unfold letter
  omega

theorem not_mem_of_misses {first last : Nat} (hmisses : r.misses first last = true)
    (h : r.covers n = true) : ¬(first ≤ r.letter n ∧ r.letter n ≤ last) := by
  obtain ⟨hfirst, hlast⟩ := letter_le h
  simp only [misses, Bool.or_eq_true, Nat.blt_eq] at hmisses
  omega

theorem add_mod_of_mod_eq_zero {a b k : Nat} (h : b % k = 0) : (a + b) % k = a % k := by
  rw [Nat.add_mod, h, Nat.add_zero, Nat.mod_mod]

theorem not_covers_letter (hapart : r.apart r' = true) (h : r.covers n = true) :
    r'.covers (r.letter n) = false := by
  rw [Bool.eq_false_iff]
  intro hcovers
  obtain ⟨hfirst, hlast, hplace⟩ := covers_eq_true.mp hcovers
  simp only [apart, Bool.or_eq_true, Bool.and_eq_true, beq_iff_eq, bne_iff_ne] at hapart
  rcases hapart with hmisses | ⟨hsteps, hbetween⟩
  · exact not_mem_of_misses hmisses h ⟨hfirst, hlast⟩
  · -- In steps of the same length a letter keeps the remainder of the first.
    obtain ⟨hn, hn', hstep⟩ := covers_eq_true.mp h
    have hletter : (n - r.first) % r'.step = 0 := by
      rcases hsteps with hsingle | hsame
      · rw [show n - r.first = 0 by omega, Nat.zero_mod]
      · rwa [← hsame]
    have hsum : r'.first + (r.letter n - r'.first) = r.target + (n - r.first) :=
      Nat.add_sub_of_le hfirst
    exact hbetween ((add_mod_of_mod_eq_zero hletter).symm.trans
      (hsum ▸ add_mod_of_mod_eq_zero hplace))

end Run

/-! ## The table -/

/-- Ranges that no run gives a letter in: control characters, white space, the capital I with a dot,
code points that are no characters and the replacement character. -/
def gaps : List (Nat × Nat) :=
  [(0, 0x60), (0x7F, 0xA0), (0x130, 0x130), (0x1680, 0x1680), (0x2000, 0x205F), (0x3000, 0x3000),
    (0xD800, 0xDFFF), (0xFFFD, 0xFFFD)]

theorem runs_misses : (runs.all fun r =>
    (r.letter r.last).blt 0x110000 && gaps.all fun gap => r.misses gap.1 gap.2) = true := by
  decide +kernel

theorem runs_apart : (runs.all fun r => runs.all r.apart) = true := by decide +kernel

/-- A code point that is in no gap. -/
def Free (n : Nat) : Prop := n < 0x110000 ∧ ∀ gap ∈ gaps, ¬(gap.1 ≤ n ∧ n ≤ gap.2)

instance (n : Nat) : Decidable (Free n) := inferInstanceAs (Decidable (_ ∧ _))

theorem free_letter {r : Run} (hr : r ∈ runs) {n : Nat} (h : r.covers n = true) :
    Free (r.letter n) := by
  have hmisses := List.all_eq_true.mp runs_misses r hr
  rw [Bool.and_eq_true, Nat.blt_eq, List.all_eq_true] at hmisses
  exact ⟨Nat.lt_of_le_of_lt (Run.letter_le h).2 hmisses.1,
    fun gap hgap => Run.not_mem_of_misses (hmisses.2 gap hgap) h⟩

theorem lowerCode_cases (n : Nat) :
    lowerCode n = n ∨ ∃ r ∈ runs, r.covers n = true ∧ lowerCode n = r.letter n := by
  unfold lowerCode
  cases hfind : runs.find? fun r => r.covers n with
  | none => exact .inl rfl
  | some r =>
    have hcovers := List.find?_some hfind
    exact .inr ⟨r, List.mem_of_find?_eq_some hfind, hcovers, rfl⟩

theorem lowerCode_lowerCode (n : Nat) : lowerCode (lowerCode n) = lowerCode n := by
  rcases lowerCode_cases n with h | ⟨r, hr, hcovers, h⟩
  · rw [h, h]
  · rw [h]
    have hnone : (runs.find? fun r' => r'.covers (r.letter n)) = none :=
      List.find?_eq_none.mpr fun r' hr' => by
        rw [Run.not_covers_letter (List.all_eq_true.mp
          (List.all_eq_true.mp runs_apart r hr) r' hr') hcovers]
        exact Bool.false_ne_true
    rw [lowerCode, hnone]

/-! ## Characters -/

theorem toNat_ofNat {n : Nat} (h : n.isValidChar) : (Char.ofNat n).toNat = n := by
  rw [Char.ofNat, dif_pos h]
  rfl

theorem Free.isValidChar {n : Nat} (h : Free n) : n.isValidChar := by
  have hsurrogate := h.2 (0xD800, 0xDFFF) (by decide)
  have hlt := h.1
  unfold Nat.isValidChar
  omega

/-- A character without a run is kept, and the letter of a run is free. -/
theorem lowerCode_keeps_or_free (c : Char) :
    lowerCode c.toNat = c.toNat ∨ Free (lowerCode c.toNat) := by
  rcases lowerCode_cases c.toNat with hsame | ⟨r, hr, hcovers, hletter⟩
  · exact .inl hsame
  · rw [hletter]
    exact .inr (free_letter hr hcovers)

theorem toNat_ofNat_lowerCode (c : Char) :
    (Char.ofNat (lowerCode c.toNat)).toNat = lowerCode c.toNat := by
  rcases lowerCode_keeps_or_free c with hsame | hfree
  · rw [hsame, Char.ofNat_toNat]
  · exact toNat_ofNat hfree.isValidChar

theorem eq_or_free_of_mem_lower {c l : Char} (h : l ∈ lower c) : l = c ∨ Free l.toNat := by
  unfold lower at h
  split at h
  · rcases List.mem_cons.mp h with rfl | h
    · exact .inr (by decide)
    · rw [List.mem_singleton.mp h]
      exact .inr (by decide)
  · rw [List.mem_singleton.mp h, toNat_ofNat_lowerCode]
    refine (lowerCode_keeps_or_free c).imp_left fun hsame => ?_
    rw [hsame, Char.ofNat_toNat]

/-- A lower case letter stays as it is. -/
theorem lower_of_mem {c l : Char} (h : l ∈ lower c) : lower l = [l] := by
  have hkept := eq_or_free_of_mem_lower h
  unfold lower at h
  split at h
  · rcases List.mem_cons.mp h with rfl | h
    · decide +kernel
    · rw [List.mem_singleton.mp h]
      decide +kernel
  · rename_i hdotted
    have hl := List.mem_singleton.mp h
    have hnot : l ≠ '\u0130' := by
      rintro rfl
      rcases hkept with hsame | hfree
      · exact hdotted hsame.symm
      · exact hfree.2 (0x130, 0x130) (by decide) (by decide)
    rw [lower, if_neg hnot, hl, toNat_ofNat_lowerCode, lowerCode_lowerCode]

end Lowercase
end GridOps
