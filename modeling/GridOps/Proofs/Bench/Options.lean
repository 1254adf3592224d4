import GridOps.Bench.Options
import GridOps.Proofs.CommandLine.Values
import GridOps.Proofs.Text.Numeral
import Mathlib.Data.List.Nodup

/-!
The options of a benchmark: what their checks let pass, and what is read.

The check of a percentage and the reader agree on every text but a zero with a minus sign, which the
check of the selectivity lets pass (`checkSelectivity_ok_iff`, `checkOccupancy_ok_iff`).  For every
other option, and every other value, what passes the check is read (`Reads`), so arguments that are
not refused give settings with percentages in their ranges (`ofValues_ends`).
-/

namespace GridOps

namespace Settings

theorem checkSelectivity_ok_iff {cs : List Char} : checkSelectivity cs = .ok () ↔
    (∃ n ≤ 100, Numeral.word 32 cs = .ok n) ∨ Numeral.IsNegativeZero cs := by
  have hcheck : checkSelectivity cs = .ok () ↔
      ∃ n : Int, Numeral.parse KeyType.i32.lowest KeyType.i32.largest 10 cs = .ok n ∧
        0 ≤ n ∧ n ≤ 100 := by
    unfold checkSelectivity
    cases Numeral.parse KeyType.i32.lowest KeyType.i32.largest 10 cs with
    | error e => simp
    | ok n => simp
  have hsigned : KeyType.i32.lowest < 0 := by decide
  rw [hcheck]
  constructor
  · -- The check reads a signed numeral, so one that is not negative may still have a minus sign.
    rintro ⟨m, hparse, hlow, hhigh⟩
    obtain ⟨n, rfl⟩ := Int.eq_ofNat_of_zero_le hlow
    obtain ⟨hinteger, -⟩ := (Numeral.parse_ok_iff (by decide) (by decide) (by decide)
      (by decide)).mp hparse
    rcases (Numeral.isInteger_natCast_iff hsigned).mp hinteger with hdenotes | ⟨-, hzero⟩
    · exact .inl ⟨n, by omega, Numeral.word_ok_iff.mpr ⟨hdenotes, by omega⟩⟩
    · exact .inr hzero
  · intro h
    obtain ⟨n, hn, hinteger⟩ : ∃ n : Nat, n ≤ 100 ∧
        Numeral.IsInteger (KeyType.i32.lowest < 0) 10 cs n := by
      simp only [Numeral.isInteger_natCast_iff hsigned]
      rcases h with ⟨n, hn, hword⟩ | hzero
      · exact ⟨n, hn, .inl (Numeral.word_ok_iff.mp hword).1⟩
      · exact ⟨0, by decide, .inr ⟨rfl, hzero⟩⟩
    refine ⟨n, (Numeral.parse_ok_iff (by decide) (by decide) (by decide) (by decide)).mpr
      ⟨hinteger, ?_, ?_⟩, by omega, by omega⟩
    · show (-2147483648 : Int) ≤ n
      omega
    · show (n : Int) ≤ 2147483647
      omega

theorem checkOccupancy_ok_iff {cs : List Char} : checkOccupancy cs = .ok () ↔
    ∃ n, 1 ≤ n ∧ n ≤ 100 ∧ Numeral.word 32 cs = .ok n := by
  constructor
  · intro h
    unfold checkOccupancy at h
    split at h
    · rename_i n hword
      split at h
      · rename_i hn
        exact ⟨n, hn.1, hn.2, hword⟩
      · cases h
    · cases h
  · rintro ⟨n, hlow, hhigh, hword⟩
    rw [checkOccupancy, hword]
    exact if_pos ⟨hlow, hhigh⟩

/-! ## Values that passed their checks -/

/-- Each value passes the check of the option that it is for. -/
def Checked (values : List (String × String)) : Prop :=
  ∀ name o text, CommandLine.named? options name = some o → values.lookup name = some text →
    CommandLine.checkValue o text = .ok ()

theorem nodup_names : (options.map (·.name)).Nodup := by
  decide

theorem checkValue_default :
    ∀ o ∈ options, ∀ text ∈ o.default?, CommandLine.checkValue o text = .ok () := by
  decide

theorem values_checked (args : List String) :
    Ends (CommandLine.values options args) Checked UsageError.Refuses := by
  have hends := CommandLine.values_ends options args
  refine ⟨fun values hvalues name o text hname htext => ?_, hends.error⟩
  have ho : o ∈ options ∧ o.name = name := by
    have hfound := List.find?_some hname
    exact ⟨List.mem_of_find?_eq_some hname, by simpa using hfound⟩
  have hgiven : (name, text) ∈ values := by
    obtain ⟨before, after, rfl, -⟩ := List.lookup_eq_some_iff.mp htext
    exact List.mem_append_cons_self
  obtain ⟨o', ho', hname', hallows⟩ := hends.ok values hvalues (name, text) hgiven
  obtain rfl : o' = o :=
    List.inj_on_of_nodup_map nodup_names ho' ho.1 (hname'.trans ho.2.symm)
  rcases hallows with hdefault | hcheck
  · exact checkValue_default o' ho' text hdefault
  · exact hcheck

/-! ## Reading -/

section Reading

variable {α : Type} {values : List (String × String)} {name : String} {read? : List Char → Option α}
  {P : α → Prop} {Q : UsageError → Prop}

theorem read_ends (h : ∀ text, values.lookup name = some text →
      (∃ a, read? text.toList = some a ∧ P a) ∨
        (read? text.toList = none ∧ Q (.unreadable name))) :
    Ends (read values read? name) (fun a? => ∀ a ∈ a?, P a) Q := by
  unfold read
  cases htext : values.lookup name with
  | none => exact .pure fun a ha => nomatch ha
  | some text =>
    dsimp only
    rcases h text htext with ⟨a, ha, hP⟩ | ⟨hnone, hQ⟩
    · rw [ha]
      exact .pure fun b hb => Option.some.inj hb ▸ hP
    · rw [hnone]
      exact .fail hQ

theorem require_ends {r : String → Except UsageError (Option α)}
    (hr : Ends (r name) (fun a? => ∀ a ∈ a?, P a) Q) (hmissing : Q (.noValue name)) :
    Ends (require name r) P Q := by
  refine hr.bind fun a? ha => ?_
  cases a? with
  | none => exact .fail hmissing
  | some a => exact .pure (ha a rfl)

/-- Each value that passes the check of the option is read as one with the property. -/
def Reads (o : OptionSpec) (read? : List Char → Option α) (P : α → Prop) : Prop :=
  ∀ text, CommandLine.checkValue o text = .ok () → ∃ a, read? text.toList = some a ∧ P a

theorem Reads.read_ends {o : OptionSpec} (h : Reads o read? P) (hvalues : Checked values)
    (ho : CommandLine.named? options name = some o) :
    Ends (read values read? name) (fun a? => ∀ a ∈ a?, P a) Q :=
  Settings.read_ends fun text htext => .inl (h text (hvalues name o text ho htext))

end Reading

section Rules

variable {o : OptionSpec}

theorem reads_word {bits : Nat} (hrule : o.rule = word bits) :
    Reads o (fun cs => (Numeral.word bits cs).toOption) fun _ => True := by
  intro text hcheck
  rw [CommandLine.checkValue_checked_iff hrule, checkWord] at hcheck
  cases hword : Numeral.word bits text.toList with
  | error e =>
    rw [hword] at hcheck
    cases hcheck
  | ok n => exact ⟨n, congrArg Except.toOption hword, trivial⟩

theorem reads_float (hrule : o.rule = .checked checkFloat) :
    Reads o (fun cs => (Decimal.parse cs).toOption) fun _ => True := by
  intro text hcheck
  rw [CommandLine.checkValue_checked_iff hrule, checkFloat] at hcheck
  cases hfloat : Decimal.parse text.toList with
  | error e =>
    rw [hfloat] at hcheck
    cases hcheck
  | ok x => exact ⟨x, congrArg Except.toOption hfloat, trivial⟩

theorem reads_text : Reads o (fun cs => some (String.ofList cs)) fun _ => True :=
  fun _ _ => ⟨_, rfl, trivial⟩

theorem reads_choice {α : Type} {c : Choices α} (hrule : o.rule = .oneOf c.names) :
    Reads o (choice? c) fun _ => True := by
  intro text hcheck
  have hany : c.names.any (CommandLine.sameName text) = true := by
    by_contra hnone
    rw [CommandLine.checkValue, hrule] at hcheck
    dsimp only at hcheck
    rw [if_neg hnone] at hcheck
    cases hcheck
  rw [Choices.names, List.any_map, List.any_eq_true] at hany
  obtain ⟨found, hfound⟩ := Option.isSome_iff_exists.mp (List.find?_isSome.mpr hany)
  refine ⟨found.2, ?_, trivial⟩
  rw [choice?, String.ofList_toList]
  exact congrArg (Option.map (·.2)) hfound

theorem reads_occupancy (hrule : o.rule = .checked checkOccupancy) :
    Reads o (fun cs => (Numeral.word 32 cs).toOption) fun n => 1 ≤ n ∧ n ≤ 100 := by
  intro text hcheck
  rw [CommandLine.checkValue_checked_iff hrule, checkOccupancy_ok_iff] at hcheck
  obtain ⟨n, hlow, hhigh, hword⟩ := hcheck
  exact ⟨n, congrArg Except.toOption hword, hlow, hhigh⟩

end Rules

section Settings

variable {values : List (String × String)}

/-- The one value that passes its check and is not read is a negative zero for the selectivity. -/
def SelectivityOnly (values : List (String × String)) (e : UsageError) : Prop :=
  ∀ name, e = .unreadable name → name = "selectivity" ∧
    ∃ text, values.lookup "selectivity" = some text ∧ Numeral.IsNegativeZero text.toList

theorem selectivity_ends (hvalues : Checked values) :
    Ends (require "selectivity" (read values fun cs => (Numeral.word 32 cs).toOption)) (· ≤ 100)
      (SelectivityOnly values) := by
  refine require_ends (read_ends fun text htext => ?_) fun _ h => nomatch h
  have hcheck := (CommandLine.checkValue_checked_iff rfl).mp
    (hvalues "selectivity" _ text rfl htext)
  rcases checkSelectivity_ok_iff.mp hcheck with ⟨n, hn, hword⟩ | hzero
  · exact .inl ⟨n, congrArg Except.toOption hword, hn⟩
  · refine .inr ⟨congrArg Except.toOption hzero.word_eq, fun name hname => ?_⟩
    cases hname
    exact ⟨rfl, text, htext, hzero⟩

theorem required_ends {α : Type} {name : String} {o : OptionSpec} {read? : List Char → Option α}
    {P : α → Prop} (hvalues : Checked values) (ho : CommandLine.named? options name = some o)
    (h : Reads o read? P) : Ends (require name (read values read?)) P (SelectivityOnly values) :=
  require_ends (h.read_ends hvalues ho) fun _ hname => nomatch hname

theorem ofValues_ends (hvalues : Checked values) :
    Ends (ofValues values)
      (fun s => s.selectivity ≤ 100 ∧ 1 ≤ s.join.occupancy ∧ s.join.occupancy ≤ 100)
      (SelectivityOnly values) := by
  unfold ofValues
  -- One option after the other, in the order of the settings.
  refine (required_ends hvalues rfl (reads_word rfl)).bind fun repetitions _ => ?_
  refine (reads_text.read_ends hvalues rfl).bind fun csv? _ => ?_
  refine (required_ends hvalues rfl (reads_choice rfl)).bind fun joinType _ => ?_
  refine (required_ends hvalues rfl (reads_choice rfl)).bind fun buildSide _ => ?_
  refine (required_ends hvalues rfl (reads_occupancy rfl)).bind fun occupancy hoccupancy => ?_
  refine (required_ends hvalues rfl (reads_word rfl)).bind fun block _ => ?_
  refine (required_ends hvalues rfl (reads_word rfl)).bind fun threshold _ => ?_
  refine (required_ends hvalues rfl (reads_word rfl)).bind fun maxRetries _ => ?_
  refine ((reads_word rfl).read_ends hvalues rfl).bind fun maxRows? _ => ?_
  refine (required_ends hvalues rfl (reads_choice rfl)).bind fun dataSet _ => ?_
  refine (required_ends hvalues rfl (reads_choice rfl)).bind fun distribution _ => ?_
  refine ((reads_float rfl).read_ends hvalues rfl).bind fun exponent? _ => ?_
  refine (selectivity_ends hvalues).bind fun selectivity hselectivity => ?_
  refine (reads_text.read_ends hvalues rfl).bind fun innerFile? _ => ?_
  refine (reads_text.read_ends hvalues rfl).bind fun outerFile? _ => ?_
  refine (required_ends hvalues rfl (reads_choice rfl)).bind fun keyWidth _ => ?_
  refine ((reads_word rfl).read_ends hvalues rfl).bind fun innerLen? _ => ?_
  refine ((reads_word rfl).read_ends hvalues rfl).bind fun outerLen? _ => ?_
  refine (required_ends hvalues rfl (reads_word rfl)).bind fun ordinal _ => ?_
  refine ((reads_word rfl).read_ends hvalues rfl).bind fun memory? _ => ?_
  refine (required_ends hvalues rfl (reads_word rfl)).bind fun workers _ => ?_
  exact .pure ⟨hselectivity, hoccupancy⟩

end Settings

/-- Arguments that are not refused give settings, but for a negative zero. -/
theorem ofArguments_ends (args : List String) :
    Ends (ofArguments args)
      (fun s => s.selectivity ≤ 100 ∧ 1 ≤ s.join.occupancy ∧ s.join.occupancy ≤ 100)
      fun e => e.Refuses ∨ ∃ values, CommandLine.values options args = .ok values ∧
        SelectivityOnly values e := by
  have hends := values_checked args
  refine Ends.bind
    (P := fun values => CommandLine.values options args = .ok values ∧ Checked values)
    ⟨fun values h => ⟨h, hends.ok values h⟩, fun e h => .inl (hends.error e h)⟩
    fun values hvalues => ?_
  have hread := ofValues_ends hvalues.2
  exact ⟨hread.ok, fun e h => .inr ⟨values, hvalues.1, hread.error e h⟩⟩

/-- The checks of the percentages and the reader of words.  On every text but a zero with a minus
sign, the check of the selectivity lets pass the words up to 100; such a zero passes too, and is no
word.  The check of the occupancy lets pass the words from 1 to 100.  Arguments that give settings
give percentages in their ranges, and if a value passes its check and is not read, it is such a zero
for the selectivity. -/
theorem percentages_outcome (cs : List Char) (args : List String) :
    (¬Numeral.IsNegativeZero cs →
      (checkSelectivity cs = .ok () ↔ ∃ n ≤ 100, Numeral.word 32 cs = .ok n)) ∧
    (Numeral.IsNegativeZero cs →
      checkSelectivity cs = .ok () ∧ Numeral.word 32 cs = .error .invalidDigit) ∧
    (checkOccupancy cs = .ok () ↔ ∃ n, 1 ≤ n ∧ n ≤ 100 ∧ Numeral.word 32 cs = .ok n) ∧
    (∀ s, ofArguments args = .ok s →
      s.selectivity ≤ 100 ∧ 1 ≤ s.join.occupancy ∧ s.join.occupancy ≤ 100) ∧
    ∀ name, ofArguments args = .error (.unreadable name) → name = "selectivity" ∧
      ∃ values text, CommandLine.values options args = .ok values ∧
        values.lookup "selectivity" = some text ∧ Numeral.IsNegativeZero text.toList := by
  refine ⟨fun hzero => ?_, fun hzero => ⟨checkSelectivity_ok_iff.mpr (.inr hzero), hzero.word_eq⟩,
    checkOccupancy_ok_iff, (ofArguments_ends args).ok, fun name hname => ?_⟩
  · rw [checkSelectivity_ok_iff, or_iff_left hzero]
  · rcases (ofArguments_ends args).error _ hname with hrefuses | ⟨values, hvalues, honly⟩
    · exact hrefuses.elim
    · obtain ⟨hsame, text, htext, hzero⟩ := honly name rfl
      exact ⟨hsame, values, text, hvalues, htext, hzero⟩

/-- The values of all options where only percentages are given. -/
def withPercentages (occupancy selectivity : String) : List (String × String) :=
  [("repeat", "30"), ("join-type", "Inner"), ("build-side", "Smaller"), ("occupancy", occupancy),
    ("block-size", "128"), ("sample-threshold", "5"), ("max-grow-retries", "16"),
    ("data-set", "Test"), ("data-distribution", "Uniform"), ("selectivity", selectivity),
    ("key-bytes", "Bytes4"), ("device-id", "0"), ("threads", "0")]

/-- A percentage with a plus sign and zeros before it is read.  A zero with a minus sign passes its
check and is not read. -/
theorem percentages_outcome_signed :
    (¬Numeral.IsNegativeZero "+007".toList ∧ checkSelectivity "+007".toList = .ok () ∧
      ∃ s, ofArguments ["--selectivity=+007", "--occupancy", "1"] = .ok s ∧ s.selectivity ≤ 100 ∧
        1 ≤ s.join.occupancy ∧ s.join.occupancy ≤ 100) ∧
    Numeral.IsNegativeZero "-00".toList ∧ checkSelectivity "-00".toList = .ok () ∧
    ofArguments ["--selectivity=-00"] = .error (.unreadable "selectivity") ∧
    ∃ values text, CommandLine.values options ["--selectivity=-00"] = .ok values ∧
      values.lookup "selectivity" = some text ∧ Numeral.IsNegativeZero text.toList := by
  have hgiven : CommandLine.values options ["--selectivity=+007", "--occupancy", "1"] =
      .ok (withPercentages "1" "+007") := by decide +kernel
  have hread : ∃ s, ofArguments ["--selectivity=+007", "--occupancy", "1"] = .ok s := by
    rw [ofArguments, hgiven]
    exact ⟨_, rfl⟩
  have hplus : ¬Numeral.IsNegativeZero "+007".toList := fun ⟨_, _, h⟩ =>
    absurd (List.cons.inj h).1 (by decide)
  have hgiven' : CommandLine.values options ["--selectivity=-00"] =
      .ok (withPercentages "50" "-00") := by decide +kernel
  have hfails : ofArguments ["--selectivity=-00"] = .error (.unreadable "selectivity") := by
    rw [ofArguments, hgiven']
    rfl
  have hzero : Numeral.IsNegativeZero "-00".toList := ⟨2, by decide, rfl⟩
  obtain ⟨hagree, -, -, hranges, -⟩ :=
    percentages_outcome "+007".toList ["--selectivity=+007", "--occupancy", "1"]
  obtain ⟨-, hpasses, -, -, hunreadable⟩ := percentages_outcome "-00".toList ["--selectivity=-00"]
  obtain ⟨s, hs⟩ := hread
  exact ⟨⟨hplus, (hagree hplus).mpr ⟨7, by decide, rfl⟩, s, hs, hranges s hs⟩, hzero,
    (hpasses hzero).1, hfails, (hunreadable _ hfails).2⟩

/-- The check of the selectivity lets a zero with a minus sign pass, so a second one is a
repetition, and one alone is not read. -/
theorem selectivity_negative_zero :
    ¬(checkSelectivity "-0".toList = .ok () ↔ ∃ n ≤ 100, Numeral.word 32 "-0".toList = .ok n) ∧
      ofArguments ["--selectivity=-0"] = .error (.unreadable "selectivity") ∧
      CommandLine.values options ["--selectivity=-0", "--selectivity=-0"] =
        .error (.repeated "selectivity") := by
  have hgiven : CommandLine.values options ["--selectivity=-0"] =
      .ok (withPercentages "50" "-0") := by decide +kernel
  refine ⟨fun h => ?_, ?_, by decide +kernel⟩
  · obtain ⟨n, -, hn⟩ := h.mp (by decide)
    cases hn
  · rw [ofArguments, hgiven]
    rfl

end Settings
end GridOps
