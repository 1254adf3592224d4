import GridOps.Text.Numeral
import Mathlib.Algebra.Group.Nat.Defs
import Mathlib.Data.List.Forall2
import Mathlib.Data.Nat.Digits.Defs

/-!
Which texts are numerals.

An integer is written in a base with an optional sign, and read if it lies between the bounds of its
type (`parse_ok_iff`).  So a word is read from an optional plus sign and decimal digits, leading
zeros included, of a number that it holds (`word_ok_iff`).  Zero is the one number that is not
negative and can have a minus sign, in a type with negative numbers (`isInteger_natCast_iff`).  The
text that is printed for an integer is its decimal numeral (`isInteger_toString`).
-/

namespace GridOps
namespace Numeral

/-- A digit of a base up to sixteen: a decimal digit, or a letter of either case. -/
def IsDigit (base : Nat) (c : Char) (d : Nat) : Prop :=
  d < base ∧ (c = Nat.digitChar d ∨ c = (Nat.digitChar d).toUpper)

/-- At least one digit, the most significant first. -/
def IsMagnitude (base : Nat) (cs : List Char) (n : Nat) : Prop :=
  ∃ ds, ds ≠ [] ∧ List.Forall₂ (IsDigit base) cs ds ∧ n = Nat.ofDigits base ds.reverse

/-- A magnitude with an optional sign.  There is a minus sign only if there are negative numbers. -/
inductive IsInteger (negative : Prop) (base : Nat) : List Char → Int → Prop
  | bare {cs : List Char} {n : Nat} (h : IsMagnitude base cs n) : IsInteger negative base cs n
  | plus {cs : List Char} {n : Nat} (h : IsMagnitude base cs n) :
    IsInteger negative base ('+' :: cs) n
  | minus {cs : List Char} {n : Nat} (hneg : negative) (h : IsMagnitude base cs n) :
    IsInteger negative base ('-' :: cs) (-n)

/-! ## Digits -/

theorem toNat_digitChar {d : Nat} (h : d < 16) :
    (Nat.digitChar d).toNat = (if d < 10 then 48 + d else 87 + d) ∧
      (Nat.digitChar d).toUpper.toNat = if d < 10 then 48 + d else 55 + d := by
  revert d
  decide

theorem foldl_digits (base : Nat) (ds : List Nat) :
    ds.foldl (fun n d => n * base + d) 0 = Nat.ofDigits base ds.reverse := by
  rw [Nat.ofDigits_eq_foldr, List.foldr_reverse]
  simp only [Nat.cast_id, Nat.mul_comm, Nat.add_comm]

/-- More digits stand for no smaller a number. -/
theorem le_foldl_digits {base : Nat} (hbase : 0 < base) (ds : List Nat) (acc : Nat) :
    acc ≤ ds.foldl (fun n d => n * base + d) acc := by
  induction ds generalizing acc with
  | nil => exact Nat.le_refl acc
  | cons d rest ih =>
    rw [List.foldl_cons]
    have hmul : acc ≤ acc * base := Nat.le_mul_of_pos_right acc hbase
    exact Nat.le_trans (Nat.le_trans hmul (Nat.le_add_right ..)) (ih _)

/-- The running number is within the limit at every digit exactly if it is at the end. -/
theorem digits_ok_iff {base limit n : Nat} {overflow : NumeralError} (hbase : 0 < base)
    (cs : List Char) {acc : Nat} (hacc : acc ≤ limit) :
    digits base limit overflow cs acc = .ok n ↔
      ∃ ds, List.Forall₂ (fun c d => digit? base c = some d) cs ds ∧
        n = ds.foldl (fun n d => n * base + d) acc ∧ n ≤ limit := by
  induction cs generalizing acc with
  | nil =>
    rw [digits, Except.ok.injEq]
    constructor
    · rintro rfl
      exact ⟨[], .nil, rfl, hacc⟩
    · rintro ⟨ds, hds, rfl, -⟩
      cases hds
      rfl
  | cons c rest ih =>
    rw [digits]
    cases hdigit : digit? base c with
    | none =>
      refine iff_of_false (fun h => by cases h) ?_
      rintro ⟨ds, hds, -, -⟩
      cases hds with
      | cons hc _ => cases hdigit.symm.trans hc
    | some d =>
      dsimp only
      by_cases hlimit : limit < acc * base + d
      · rw [if_pos hlimit]
        refine iff_of_false (fun h => by cases h) ?_
        rintro ⟨ds, hds, rfl, hle⟩
        cases hds with
        | cons hc _ =>
          cases hdigit.symm.trans hc
          rw [List.foldl_cons] at hle
          exact Nat.not_lt_of_le (Nat.le_trans (le_foldl_digits hbase _ _) hle) hlimit
      · rw [if_neg hlimit, ih (Nat.le_of_not_lt hlimit)]
        constructor
        · rintro ⟨ds, hds, rfl, hle⟩
          exact ⟨d :: ds, .cons hdigit hds, rfl, hle⟩
        · rintro ⟨ds, hds, rfl, hle⟩
          cases hds with
          | cons hc hrest =>
            cases hdigit.symm.trans hc
            exact ⟨_, hrest, rfl, hle⟩

section Base

variable {base : Nat} (hbase : base ≤ 16)
include hbase

theorem digit?_eq_some_iff {c : Char} {d : Nat} :
    digit? base c = some d ↔ IsDigit base c d := by
  unfold digit? IsDigit
  dsimp only
  rw [Option.filter_eq_some_iff]
  by_cases hd : d < base
  · obtain ⟨hlower, hupper⟩ := toNat_digitChar (show d < 16 by omega)
    rw [← Char.toNat_inj, ← Char.toNat_inj, hlower, hupper]
    simp only [hd, decide_true, and_true, true_and]
    split
    · split <;> simp <;> omega
    split
    · split <;> simp <;> omega
    split
    · split <;> simp <;> omega
    · split <;> simp <;> omega
  · simp [hd]

/-- Digits are letters and decimal digits: printed characters of the first half of a byte. -/
theorem IsDigit.bounds {c : Char} {d : Nat} (h : IsDigit base c d) :
    48 ≤ c.toNat ∧ c.toNat < 0x80 := by
  obtain ⟨hd, hc⟩ := h
  obtain ⟨hlower, hupper⟩ := toNat_digitChar (show d < 16 by omega)
  rcases hc with rfl | rfl
  · rw [hlower]
    split <;> omega
  · rw [hupper]
    split <;> omega

theorem IsMagnitude.bounds {cs : List Char} {n : Nat} (h : IsMagnitude base cs n) :
    ∀ c ∈ cs, 48 ≤ c.toNat ∧ c.toNat < 0x80 := by
  obtain ⟨ds, -, hds, -⟩ := h
  exact ((List.forall₂_and_left cs ds).mp (hds.imp fun c d hd => ⟨hd.bounds hbase, hd⟩)).1

/-- No magnitude starts with a sign. -/
theorem IsMagnitude.head {c : Char} {cs : List Char} {n : Nat} (h : IsMagnitude base (c :: cs) n) :
    c ≠ '+' ∧ c ≠ '-' := by
  have hc := (h.bounds hbase c List.mem_cons_self).1
  constructor <;> rintro rfl <;> exact absurd hc (by decide)

theorem IsInteger.bounds {negative : Prop} {cs : List Char} {n : Int}
    (h : IsInteger negative base cs n) : ∀ c ∈ cs, 43 ≤ c.toNat ∧ c.toNat < 0x80 := by
  have hmagnitude : ∀ {cs m}, IsMagnitude base cs m → ∀ c ∈ cs, 43 ≤ c.toNat ∧ c.toNat < 0x80 := by
    intro cs m hm c hc
    have := hm.bounds hbase c hc
    omega
  cases h with
  | bare h => exact hmagnitude h
  | plus h => exact List.forall_mem_cons.mpr ⟨by decide, hmagnitude h⟩
  | minus _ h => exact List.forall_mem_cons.mpr ⟨by decide, hmagnitude h⟩

variable (hpos : 0 < base)
include hpos

theorem magnitude_ok_iff {limit n : Nat} {overflow : NumeralError} {cs : List Char} :
    magnitude base limit overflow cs = .ok n ↔ IsMagnitude base cs n ∧ n ≤ limit := by
  have hdigits : ∀ ds, List.Forall₂ (fun c d => digit? base c = some d) cs ds ↔
      List.Forall₂ (IsDigit base) cs ds := fun ds =>
    ⟨fun h => h.imp fun c d hd => (digit?_eq_some_iff hbase).mp hd,
      fun h => h.imp fun c d hd => (digit?_eq_some_iff hbase).mpr hd⟩
  unfold magnitude
  by_cases hempty : cs = []
  · rw [if_pos (by simpa using hempty)]
    refine iff_of_false (fun h => by cases h) ?_
    rintro ⟨⟨ds, hne, hds, -⟩, -⟩
    rw [hempty] at hds
    exact hne (List.forall₂_nil_left_iff.mp hds)
  · rw [if_neg (by simpa using hempty), digits_ok_iff hpos cs (Nat.zero_le limit)]
    constructor
    · rintro ⟨ds, hds, rfl, hle⟩
      rw [hdigits] at hds
      refine ⟨⟨ds, ?_, hds, foldl_digits base ds⟩, hle⟩
      rintro rfl
      exact hempty (List.forall₂_nil_right_iff.mp hds)
    · rintro ⟨⟨ds, -, hds, rfl⟩, hle⟩
      exact ⟨ds, (hdigits ds).mpr hds, (foldl_digits base ds).symm, hle⟩

end Base

/-! ## Reading -/

section Reading

variable {base : Nat} {lowest largest n : Int} {cs : List Char}

theorem parse_plus (cs : List Char) : parse lowest largest base ('+' :: cs) =
    (magnitude base largest.toNat .tooLarge cs).map fun m : Nat => (m : Int) := by
  show (do return ((← magnitude base largest.toNat .tooLarge cs : Nat) : Int)) = _
  cases magnitude base largest.toNat .tooLarge cs <;> rfl

theorem parse_minus (cs : List Char) : parse lowest largest base ('-' :: cs) =
    if lowest < 0 then (magnitude base (-lowest).toNat .tooSmall cs).map fun m : Nat => -(m : Int)
    else .error .invalidDigit := by
  rw [parse]
  split
  · cases magnitude base (-lowest).toNat .tooSmall cs <;> rfl
  · rfl

theorem parse_bare {c : Char} (hplus : c ≠ '+') (hminus : c ≠ '-') (cs : List Char) :
    parse lowest largest base (c :: cs) =
      (magnitude base largest.toNat .tooLarge (c :: cs)).map fun m : Nat => (m : Int) := by
  rw [parse]
  · show (do return ((← magnitude base largest.toNat .tooLarge (c :: cs) : Nat) : Int)) = _
    cases magnitude base largest.toNat .tooLarge (c :: cs) <;> rfl
  · simp
  · intro rest h
    exact hplus (List.cons.inj h).1
  · intro rest h
    exact hminus (List.cons.inj h).1

variable (hbase : base ≤ 16) (hpos : 0 < base)
include hbase hpos

theorem map_magnitude_ok_iff {limit : Nat} {overflow : NumeralError} {f : Nat → Int} :
    (magnitude base limit overflow cs).map f = .ok n ↔
      ∃ m, IsMagnitude base cs m ∧ m ≤ limit ∧ n = f m := by
  constructor
  · intro h
    cases hm : magnitude base limit overflow cs with
    | error e =>
      rw [hm] at h
      cases h
    | ok m =>
      rw [hm] at h
      cases h
      obtain ⟨hmagnitude, hle⟩ := (magnitude_ok_iff hbase hpos).mp hm
      exact ⟨m, hmagnitude, hle, rfl⟩
  · rintro ⟨m, hm, hle, rfl⟩
    rw [(magnitude_ok_iff hbase hpos).mpr ⟨hm, hle⟩]
    rfl

/-- Between the bounds of a type that has zero, every integer is read from the texts that are
written for it. -/
theorem parse_ok_iff (hlowest : lowest ≤ 0) (hlargest : 0 ≤ largest) :
    parse lowest largest base cs = .ok n ↔
      IsInteger (lowest < 0) base cs n ∧ lowest ≤ n ∧ n ≤ largest := by
  rcases cs with _ | ⟨c, rest⟩
  · refine iff_of_false (fun h => by cases h) ?_
    rintro ⟨⟨ds, hne, hds, -⟩, -⟩
    exact hne (List.forall₂_nil_left_iff.mp hds)
  by_cases hplus : c = '+'
  · subst hplus
    rw [parse_plus, map_magnitude_ok_iff hbase hpos]
    constructor
    · rintro ⟨m, hm, hle, rfl⟩
      exact ⟨.plus hm, by omega, by omega⟩
    · rintro ⟨h, -, hle⟩
      cases h with
      | bare h => exact absurd rfl (h.head hbase).1
      | plus h => exact ⟨_, h, by omega, rfl⟩
  by_cases hminus : c = '-'
  · subst hminus
    rw [parse_minus]
    split
    · rename_i hneg
      rw [map_magnitude_ok_iff hbase hpos]
      constructor
      · rintro ⟨m, hm, hle, rfl⟩
        exact ⟨.minus hneg hm, by omega, by omega⟩
      · rintro ⟨h, hle, -⟩
        cases h with
        | bare h => exact absurd rfl (h.head hbase).2
        | minus _ h => exact ⟨_, h, by omega, rfl⟩
    · rename_i hneg
      refine iff_of_false (fun h => by cases h) ?_
      rintro ⟨h, -⟩
      cases h with
      | bare h => exact absurd rfl (h.head hbase).2
      | minus hneg' _ => exact hneg hneg'
  · rw [parse_bare hplus hminus, map_magnitude_ok_iff hbase hpos]
    constructor
    · rintro ⟨m, hm, hle, rfl⟩
      exact ⟨.bare hm, by omega, by omega⟩
    · rintro ⟨h, -, hle⟩
      cases h with
      | bare h => exact ⟨_, h, by omega, rfl⟩
      | plus h => exact absurd rfl hplus
      | minus _ h => exact absurd rfl hminus

end Reading

/-! ## Decimal numerals -/

/-- A decimal numeral of `n`: an optional plus sign and at least one digit. -/
def Denotes (cs : List Char) (n : Nat) : Prop :=
  ∃ digits : List Char, (cs = digits ∨ cs = '+' :: digits) ∧ digits ≠ [] ∧
    (∀ c ∈ digits, c.isDigit = true) ∧ n = Nat.ofDigitChars 10 digits 0

theorem isDigit_ten_iff {c : Char} {d : Nat} :
    IsDigit 10 c d ↔ c.isDigit = true ∧ d = c.toNat - '0'.toNat := by
  have hdigit : c.isDigit = true ↔ 48 ≤ c.toNat ∧ c.toNat ≤ 57 := by
    simp only [Char.isDigit, Bool.and_eq_true, decide_eq_true_eq, ge_iff_le, UInt32.le_iff_toNat_le]
    exact Iff.rfl
  have hzero : '0'.toNat = 48 := rfl
  rw [hdigit, hzero, IsDigit]
  by_cases hd : d < 10
  · obtain ⟨hlower, hupper⟩ := toNat_digitChar (show d < 16 by omega)
    rw [← Char.toNat_inj, ← Char.toNat_inj, hlower, hupper, if_pos hd, if_pos hd]
    omega
  · omega

/-- Decimal digits have one list of values. -/
theorem forall₂_isDigit_ten_iff {cs : List Char} {ds : List Nat} :
    List.Forall₂ (IsDigit 10) cs ds ↔
      (∀ c ∈ cs, c.isDigit = true) ∧ ds = cs.map fun c => c.toNat - '0'.toNat := by
  induction cs generalizing ds with
  | nil => simp
  | cons c rest ih =>
    rw [List.forall₂_cons_left_iff, List.forall_mem_cons, List.map_cons]
    constructor
    · rintro ⟨d, ds', hd, hrest, rfl⟩
      obtain ⟨hc, rfl⟩ := isDigit_ten_iff.mp hd
      obtain ⟨hdigits, rfl⟩ := ih.mp hrest
      exact ⟨⟨hc, hdigits⟩, rfl⟩
    · rintro ⟨⟨hc, hdigits⟩, rfl⟩
      exact ⟨_, _, isDigit_ten_iff.mpr ⟨hc, rfl⟩, ih.mpr ⟨hdigits, rfl⟩, rfl⟩

theorem ofDigitChars_eq_foldl (cs : List Char) (acc : Nat) :
    Nat.ofDigitChars 10 cs acc =
      (cs.map fun c => c.toNat - '0'.toNat).foldl (fun n d => n * 10 + d) acc := by
  simp only [Nat.ofDigitChars, List.foldl_map, Nat.mul_comm]

theorem isMagnitude_ten_iff {cs : List Char} {n : Nat} :
    IsMagnitude 10 cs n ↔
      cs ≠ [] ∧ (∀ c ∈ cs, c.isDigit = true) ∧ n = Nat.ofDigitChars 10 cs 0 := by
  rw [ofDigitChars_eq_foldl, foldl_digits]
  constructor
  · rintro ⟨ds, hne, hds, hn⟩
    obtain ⟨hdigits, rfl⟩ := forall₂_isDigit_ten_iff.mp hds
    exact ⟨fun hempty => hne (by rw [hempty]; rfl), hdigits, hn⟩
  · rintro ⟨hne, hdigits, hn⟩
    exact ⟨_, fun hempty => hne (List.map_eq_nil_iff.mp hempty),
      forall₂_isDigit_ten_iff.mpr ⟨hdigits, rfl⟩, hn⟩

/-- Without a minus sign, an integer is a decimal numeral of a natural number. -/
theorem isInteger_ten_iff {negative : Prop} (hnegative : ¬ negative) {cs : List Char} {m : Int} :
    IsInteger negative 10 cs m ↔ ∃ n : Nat, m = n ∧ Denotes cs n := by
  constructor
  · rintro (h | h | ⟨h, -⟩)
    · obtain ⟨hne, hdigits, hn⟩ := isMagnitude_ten_iff.mp h
      exact ⟨_, rfl, _, .inl rfl, hne, hdigits, hn⟩
    · obtain ⟨hne, hdigits, hn⟩ := isMagnitude_ten_iff.mp h
      exact ⟨_, rfl, _, .inr rfl, hne, hdigits, hn⟩
    · exact absurd h hnegative
  · rintro ⟨n, rfl, digits, rfl | rfl, h⟩
    · exact .bare (isMagnitude_ten_iff.mpr h)
    · exact .plus (isMagnitude_ten_iff.mpr h)

/-- A word of `bits` bits is read from the numerals of the numbers that it holds. -/
theorem word_ok_iff {bits n : Nat} {cs : List Char} :
    word bits cs = .ok n ↔ Denotes cs n ∧ n < 2 ^ bits := by
  have hpos : 0 < 2 ^ bits := Nat.two_pow_pos bits
  have hword : word bits cs = .ok n ↔
      ∃ m : Int, parse 0 (2 ^ bits - 1 : Nat) 10 cs = .ok m ∧ m.toNat = n := by
    show (do return (← parse 0 (2 ^ bits - 1 : Nat) 10 cs).toNat) = _ ↔ _
    cases parse 0 (2 ^ bits - 1 : Nat) 10 cs <;> simp [bind, Except.bind, pure, Except.pure]
  have hparse : ∀ m : Int, parse 0 (2 ^ bits - 1 : Nat) 10 cs = .ok m ↔
      (∃ n : Nat, m = n ∧ Denotes cs n) ∧ 0 ≤ m ∧ m ≤ (2 ^ bits - 1 : Nat) := fun m => by
    rw [parse_ok_iff (by decide) (by decide) (Int.le_refl 0) (Int.natCast_nonneg _),
      isInteger_ten_iff (Int.lt_irrefl 0)]
  rw [hword]
  constructor
  · rintro ⟨m, hm, rfl⟩
    obtain ⟨⟨n, rfl, hcs⟩, -, hle⟩ := (hparse m).mp hm
    exact ⟨hcs, by omega⟩
  · rintro ⟨hcs, hlt⟩
    exact ⟨n, (hparse n).mpr ⟨⟨n, rfl, hcs⟩, Int.natCast_nonneg n, by omega⟩, rfl⟩

/-! ## Zero with a sign -/

theorem isDigit_zero_iff {c : Char} : IsDigit 10 c 0 ↔ c = '0' := by
  have hupper : (Nat.digitChar 0).toUpper = '0' := by decide
  rw [IsDigit, hupper]
  exact ⟨fun h => h.2.elim id id, fun h => ⟨by decide, .inl h⟩⟩

theorem isMagnitude_zero_iff {cs : List Char} :
    IsMagnitude 10 cs 0 ↔ ∃ zeros, 0 < zeros ∧ cs = List.replicate zeros '0' := by
  constructor
  · rintro ⟨ds, hne, hds, hsum⟩
    obtain ⟨hdigits, rfl⟩ := forall₂_isDigit_ten_iff.mp hds
    have hlength : 0 < cs.length := List.length_pos_iff.mpr fun hnil => hne (by rw [hnil]; rfl)
    refine ⟨cs.length, hlength, List.eq_replicate_iff.mpr ⟨rfl, fun c hc => ?_⟩⟩
    have hzero : c.toNat - '0'.toNat = 0 := Nat.digits_zero_of_eq_zero (by decide) hsum.symm _
      (List.mem_reverse.mpr (List.mem_map_of_mem hc))
    exact isDigit_zero_iff.mp (isDigit_ten_iff.mpr ⟨hdigits c hc, hzero.symm⟩)
  · rintro ⟨zeros, hpos, rfl⟩
    refine ⟨List.replicate zeros 0, ?_, forall₂_isDigit_ten_iff.mpr ⟨fun c hc => ?_, ?_⟩, ?_⟩
    · exact fun hnil => Nat.ne_of_gt hpos (List.replicate_eq_nil_iff _ |>.mp hnil)
    · rw [List.eq_of_mem_replicate hc]
      decide
    · rw [List.map_replicate]
      rfl
    · rw [List.reverse_replicate, Nat.ofDigits_replicate_zero]

/-- A minus sign and zeros. -/
def IsNegativeZero (cs : List Char) : Prop :=
  ∃ zeros, 0 < zeros ∧ cs = '-' :: List.replicate zeros '0'

/-- A signed numeral of a number that is not negative has no minus sign, but for zero. -/
theorem isInteger_natCast_iff {negative : Prop} (hnegative : negative) {cs : List Char} {n : Nat} :
    IsInteger negative 10 cs n ↔ Denotes cs n ∨ n = 0 ∧ IsNegativeZero cs := by
  have hunsigned : IsInteger False 10 cs n ↔ Denotes cs n := by
    rw [isInteger_ten_iff not_false]
    simp only [Int.natCast_inj, exists_eq_left']
  constructor
  · generalize hm : (n : Int) = m at hunsigned ⊢
    rintro (h | h | ⟨-, h⟩)
    · exact .inl (hunsigned.mp (.bare h))
    · exact .inl (hunsigned.mp (.plus h))
    · rename_i digits m
      obtain ⟨rfl, rfl⟩ : n = 0 ∧ m = 0 := by omega
      obtain ⟨zeros, hpos, rfl⟩ := isMagnitude_zero_iff.mp h
      exact .inr ⟨rfl, zeros, hpos, rfl⟩
  · rintro (⟨digits, rfl | rfl, h⟩ | ⟨rfl, zeros, hpos, rfl⟩)
    · exact .bare (isMagnitude_ten_iff.mpr h)
    · exact .plus (isMagnitude_ten_iff.mpr h)
    · exact .minus hnegative (isMagnitude_zero_iff.mpr ⟨zeros, hpos, rfl⟩)

/-- A type without negative numbers has no numeral with a minus sign. -/
theorem IsNegativeZero.word_eq {bits : Nat} {cs : List Char} (h : IsNegativeZero cs) :
    word bits cs = .error .invalidDigit := by
  obtain ⟨zeros, -, rfl⟩ := h
  rfl

/-! ## Printing -/

theorem isMagnitude_repr (n : Nat) : IsMagnitude 10 n.repr.toList n := by
  rw [Nat.toList_repr]
  exact isMagnitude_ten_iff.mpr ⟨Nat.toDigits_ne_nil,
    fun c hc => Nat.isDigit_of_mem_toDigits (by decide) (by decide) hc,
    (Nat.ofDigitChars_toDigits (by decide) (by decide)).symm⟩

/-- The text of an integer is a numeral of it. -/
theorem isInteger_toString {negative : Prop} {n : Int} (h : n < 0 → negative) :
    IsInteger negative 10 (toString n).toList n := by
  cases n with
  | ofNat n => exact .bare (isMagnitude_repr n)
  | negSucc n =>
    have htext : (toString (Int.negSucc n)).toList = '-' :: (n + 1).repr.toList := by
      show ("-" ++ (n + 1).repr).toList = _
      rw [String.toList_append]
      rfl
    rw [htext]
    exact .minus (h (Int.negSucc_lt_zero n)) (isMagnitude_repr (n + 1))

end Numeral
end GridOps
