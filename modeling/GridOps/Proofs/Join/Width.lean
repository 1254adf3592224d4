import GridOps.Proofs.Join.Failure
import GridOps.Proofs.Join.Peak
import GridOps.Proofs.Join.Resize

/-!
The width of row numbers cannot be seen.

A join with wider row numbers takes the same course and finds the same rows, but its table, its
buffers and its result take up to twice the bytes (`executePlan_narrows`).  So it ends as the join
with narrow row numbers does, unless one of them is out of memory (`Widens.execute_cases`).
-/

namespace GridOps

/-- The operation does not run out of memory on the device. -/
def DeviceM.AffordedBy {α : Type} (m : DeviceM JoinError α) (d : Device) : Prop :=
  ∀ e d', m d = .error e d' → e.kind ≠ .outOfMemory

namespace HashJoin

section Plans

variable {j : HashJoin} {w : Load} {bytes : Nat}

/-- The load of a join with row numbers of so many bytes. -/
def Load.withRowBytes (w : Load) (bytes : Nat) : Load := { w with rowBytes := bytes }

theorem countPlan_narrows (len : Nat) :
    (j.countPlan w len).Narrows (j.countPlan (w.withRowBytes bytes) len) :=
  (Plan.Narrows.launch _ _).bind fun _ => .pure _

theorem extrapolatePlan_narrows (s : Sample) (rest : List Sample) (rounds : Nat) :
    (j.extrapolatePlan w s rest rounds).Narrows
      (j.extrapolatePlan (w.withRowBytes bytes) s rest rounds) := by
  induction rest generalizing s rounds with
  | nil =>
    unfold extrapolatePlan
    refine (countPlan_narrows s.len).bind fun n => ?_
    dsimp only
    split
    · exact .fail _
    · split <;> exact .pure _
  | cons next rest ih =>
    unfold extrapolatePlan
    refine (countPlan_narrows s.len).bind fun n => ?_
    dsimp only
    split
    · exact .fail _
    · split
      · exact .pure _
      · exact ih next (rounds + 1)

theorem estimatePlan_narrows :
    (j.estimatePlan w).Narrows (j.estimatePlan (w.withRowBytes bytes)) := by
  unfold estimatePlan Load.withRowBytes
  dsimp only
  split
  · exact .pure _
  · exact .withCounter (extrapolatePlan_narrows _ _ _)

theorem buildPlan_narrows (block : UInt32) (rows : Nat) (reserved : Bool) :
    (buildPlan block rows reserved).Narrows (buildPlan block rows reserved) := by
  have hfill : (fillPlan block rows).Narrows (fillPlan block rows) :=
    (Plan.Narrows.launch _ _).bind fun _ => .withCounter (.withCounter (.pure ()))
  unfold buildPlan
  split
  · exact .pure ()
  · refine hfill.bind fun _ => ?_
    split
    · exact .fail _
    · exact .pure ()

variable (hle : w.rowBytes ≤ bytes) (hdouble : bytes ≤ 2 * w.rowBytes)

include hle hdouble

theorem finishPlan_narrows (slots : Nat) :
    (j.finishPlan w slots).Narrows (j.finishPlan (w.withRowBytes bytes) slots) := by
  unfold finishPlan
  change Plan.Narrows _ (if w.rows ≤ slots then _ else _)
  split
  · refine Plan.Narrows.bind ?_ fun _ => .pure _
    exact (Plan.Narrows.allocate _ hle hdouble).bind fun _ =>
      .hold (Nat.mul_le_mul_left _ hle) (.launch _ _)
  · exact .pure _

theorem attemptPlan_narrows (slots : Nat) :
    (j.attemptPlan w slots).Narrows (j.attemptPlan (w.withRowBytes bytes) slots) := by
  have hpair : 2 * w.rowBytes ≤ 2 * bytes := Nat.mul_le_mul_left _ hle
  refine (Plan.Narrows.allocate _ hpair (Nat.mul_le_mul_left _ hdouble)).bind fun _ => ?_
  exact .hold (Nat.mul_le_mul_left _ hpair)
    ((Plan.Narrows.launch _ _).bind fun _ => finishPlan_narrows hle hdouble slots)

theorem growPlan_narrows (left retries slots : Nat) :
    (j.growPlan w left retries slots).Narrows
      (j.growPlan (w.withRowBytes bytes) left retries slots) := by
  induction left using Nat.strongRecOn generalizing retries slots with
  | ind left ih =>
    unfold growPlan
    refine (attemptPlan_narrows hle hdouble slots).bind fun answer => ?_
    obtain ⟨found, fits⟩ := answer
    cases fits with
    | true => exact .pure _
    | false =>
      refine (Plan.Narrows.ofExcept _ _).bind fun _ => ?_
      cases left with
      | zero => exact .fail _
      | succ left =>
        dsimp only
        split
        · exact .fail _
        · exact ih left (Nat.lt_succ_self left) _ _

theorem probeTablePlan_narrows (capacity : Nat) :
    (j.probeTablePlan w capacity).Narrows (j.probeTablePlan (w.withRowBytes bytes) capacity) := by
  unfold probeTablePlan
  refine estimatePlan_narrows.bind fun e => ?_
  split
  · exact .pure _
  · exact .withCounter ((growPlan_narrows hle hdouble _ _ _).bind fun _ => .pure _)

theorem executePlan_narrows (reserved : Bool) {slotBytes slotBytes' : Nat}
    (hslot : slotBytes ≤ slotBytes') (hslot' : slotBytes' ≤ 2 * slotBytes) :
    (j.executePlan w reserved slotBytes).Narrows
      (j.executePlan (w.withRowBytes bytes) reserved slotBytes') := by
  unfold executePlan
  change Plan.Narrows _ (if w.probeRows = 0 ∨ (w.buildRows = 0 ∧ j.joinType = .inner) then _ else _)
  split
  · exact .pure _
  · refine (Plan.Narrows.ofExcept _ _).bind fun capacity => ?_
    refine (Plan.Narrows.allocate capacity hslot hslot').bind fun _ => ?_
    exact .hold (Nat.mul_le_mul_left _ hslot) ((buildPlan_narrows _ _ _).bind fun _ =>
      probeTablePlan_narrows hle hdouble capacity)

end Plans

/-! ## Joins -/

/-- Two runs end alike: they fail in the same way, or they return the same rows, read as row numbers
with none for the largest word of either type, and the same statistics. -/
def SameOutcome {S T : Type} [Word S] [Word T] :
    EStateM.Result JoinError Device (JoinResult S) →
    EStateM.Result JoinError Device (JoinResult T) → Prop
  | .error e _, .error e' _ => e'.kind = e.kind
  | .ok r _, .ok r' _ => r'.rowPairs = r.rowPairs ∧ r'.len = r.len ∧ r'.statistics = r.statistics
  | _, _ => False

/-- Row numbers of the type `T` are at least as wide as those of the type `S` and at most twice as
wide, and both hold the rows of a side of moderate length. -/
structure Widens (S T : Type) [Word S] [Word T] : Prop where
  width : 4 ≤ Word.bytes S
  le : Word.bytes S ≤ Word.bytes T
  double : Word.bytes T ≤ 2 * Word.bytes S

theorem widens_32_64 : Widens UInt32 UInt64 := ⟨by decide, by decide, by decide⟩

variable {K S T : Type} [Word S] [Word T] {j : HashJoin} {left right : KeyColumns K}
  {d d₁ d₂ : Device}

namespace Widens

variable (h : Widens S T)

include h

theorem width_wide : 4 ≤ Word.bytes T := Nat.le_trans h.width h.le

theorem slotBytes (K : Type) [JoinKey K] :
    Multimap.slotBytes K S ≤ Multimap.slotBytes K T ∧
      Multimap.slotBytes K T ≤ 2 * Multimap.slotBytes K S := by
  have hle := h.le
  have hdouble := h.double
  unfold Multimap.slotBytes
  omega

/-- The rows of the side that the table is built over have numbers of both types. -/
theorem built_lt (hleft : left.len < UInt32.size - 1) (hright : right.len < UInt32.size - 1) :
    (j.built left right).len < Word.toNat (Word.top S) ∧
    (j.built left right).len < Word.toNat (Word.top T) := by
  have hbuilt := built_of (P := (·.len < UInt32.size - 1)) hleft hright j
  exact ⟨Nat.lt_of_lt_of_le hbuilt (Word.size_pred_le_top h.width),
    Nat.lt_of_lt_of_le hbuilt (Word.size_pred_le_top h.width_wide)⟩

variable [JoinKey K] (keying : Keying K) (hleft : left.len < UInt32.size - 1)
  (hright : right.len < UInt32.size - 1)

include hleft hright

/-- The loads of joins of both widths differ in the width alone. -/
theorem loadOn_eq (hd : d.RunsAll) :
    j.loadOn T keying left right d =
      (j.loadOn S keying left right d).withRowBytes (Word.bytes T) := by
  obtain ⟨hbuiltS, hbuiltT⟩ := h.built_lt (j := j) hleft hright
  have hbuilt := add_size_le (built_of (P := (·.len < UInt32.size - 1)) hleft hright j)
  exact Load.ext rfl rfl (found_loadOn_eq keying hbuiltS hbuiltT hbuilt hd) rfl

/-- The plan of the wider join makes the demands of the other's, up to twice as large. -/
theorem plan_narrows (hd : d.RunsAll) (reserved : Bool) :
    (j.executePlan (j.loadOn S keying left right d) reserved (Multimap.slotBytes K S)).Narrows
      (j.executePlan (j.loadOn T keying left right d) reserved (Multimap.slotBytes K T)) := by
  rw [h.loadOn_eq keying hleft hright hd]
  obtain ⟨hslot, hslot'⟩ := h.slotBytes K
  exact executePlan_narrows h.le h.double reserved hslot hslot'

/-- Joins of both widths that return, on one worker. -/
theorem rowPairs_eq (hd : d.OneWorker) {r : JoinResult S} {r' : JoinResult T}
    (hr : j.execute keying left right d = .ok r d₁)
    (hr' : j.execute keying left right d = .ok r' d₂) :
    r'.rowPairs = r.rowPairs ∧ r'.len = r.len ∧ r'.statistics.flipped = r.statistics.flipped := by
  have hrows := rows_loadOn_lt (S := S) (j := j) keying hleft hright hd.runsAll
  have hrows' := rows_loadOn_lt (S := T) (j := j) keying hleft hright hd.runsAll
  have hprobed := add_size_le (probed_of (P := (·.len < UInt32.size - 1)) hleft hright j)
  have hbuilt := add_size_le (built_of (P := (·.len < UInt32.size - 1)) hleft hright j)
  obtain ⟨hbuiltS, hbuiltT⟩ := h.built_lt (j := j) hleft hright
  rcases prepare_cases S j keying left right d with
    ⟨e, d₃, -, hfails⟩ | ⟨haccepted, htrivial⟩ | ⟨capacity, table, d₃, hprepared⟩
  · cases (hfails _ _).symm.trans hr
  · rw [execute_of_trivial haccepted htrivial] at hr
    rw [execute_of_trivial (execute_accepted hr') htrivial] at hr'
    cases hr
    cases hr'
    exact ⟨rfl, rfl, rfl⟩
  · rcases prepare_cases T j keying left right d with
      ⟨e, d₄, -, hfails⟩ | ⟨-, htrivial⟩ | ⟨capacity', table', d₄, hprepared'⟩
    · cases (hfails _ _).symm.trans hr'
    · exact absurd htrivial hprepared.rows
    · obtain ⟨hlen, hflip, -, taken, htaken, hread⟩ := hprepared.returns hd.runsAll hprobed hrows hr
      obtain ⟨hlen', hflip', -, taken', htaken', hread'⟩ :=
        hprepared'.returns hd.runsAll hprobed hrows' hr'
      refine ⟨?_, ?_, hflip'.trans hflip.symm⟩
      · rw [hread, hread', hprepared.eq_tableOn, hprepared'.eq_tableOn, htaken.ascending hd,
          htaken'.ascending hd,
          map_rowOf_emissions_tableOn (S := S) keying hbuiltS hbuiltT hbuilt hd.runsAll]
      · rw [hlen, hlen', h.loadOn_eq keying hleft hright hd.runsAll]
        rfl

/-- The join with wider row numbers is out of memory, or both joins end alike, or in the wider join
a size overflows and the other is out of memory. -/
theorem execute_cases (hd : d.OneWorker) :
    (∃ e d', (j.execute keying left right d : EStateM.Result JoinError Device (JoinResult T)) =
      .error e d' ∧ e.kind = .outOfMemory) ∨
    SameOutcome (j.execute keying left right d : EStateM.Result JoinError Device (JoinResult S))
      (j.execute keying left right d : EStateM.Result JoinError Device (JoinResult T)) ∨
    (∃ e e' d₁ d₂,
      (j.execute keying left right d : EStateM.Result JoinError Device (JoinResult S)) =
        .error e d₁ ∧ e.kind = .outOfMemory ∧
      (j.execute keying left right d : EStateM.Result JoinError Device (JoinResult T)) =
        .error e' d₂ ∧ e'.kind = .integerOverflow) := by
  by_cases hmatch : left.Mismatched right
  · obtain ⟨e, he, hkind⟩ := execute_of_mismatch S j keying hmatch d
    obtain ⟨e', he', hkind'⟩ := execute_of_mismatch T j keying hmatch d
    refine Or.inr (Or.inl ?_)
    rw [he, he']
    exact hkind'.trans hkind.symm
  · have hfollows := execute_follows_of_match (S := S) j keying h.width hleft hright hmatch
      hd.runsAll
    have hfollows' := execute_follows_of_match (S := T) j keying h.width_wide hleft hright hmatch
      hd.runsAll
    have hends := h.plan_narrows (j := j) keying hleft hright hd.runsAll
      (decide (JoinKey.reserved K ∈ (j.built left right).keys)) d.available d.available
      (Nat.le_refl _)
    rw [← hfollows, ← hfollows'] at hends
    rcases hends with hwide | hsame | ⟨hwide, hnarrow⟩
    · exact Or.inl (DeviceM.ending_error hwide)
    · refine Or.inr (Or.inl ?_)
      cases hr :
          (j.execute keying left right d : EStateM.Result JoinError Device (JoinResult S)) with
      | error e d₁ =>
        obtain ⟨e', d₂, he', hkind⟩ := DeviceM.ending_error
          (hsame.symm.trans (DeviceM.ending_of_error hr))
        rw [he']
        exact hkind
      | ok r d₁ =>
        obtain ⟨r', d₂, hr', hview⟩ := DeviceM.ending_ok
          (hsame.symm.trans (DeviceM.ending_of_ok hr))
        obtain ⟨hread, hlen, hflip⟩ := h.rowPairs_eq keying hleft hright hd hr hr'
        rw [hr']
        exact ⟨hread, hlen, JoinResult.statistics_eq hview hflip⟩
    · obtain ⟨e', d₂, he', hkind'⟩ := DeviceM.ending_error hwide
      obtain ⟨e, d₁, he, hkind⟩ := DeviceM.ending_error hnarrow
      exact Or.inr (Or.inr ⟨e, e', d₁, d₂, he, hkind, he', hkind'⟩)

/-- With memory for both, the joins end alike. -/
theorem sameOutcome (hd : d.OneWorker)
    (hnarrow : (j.execute keying left right : DeviceM JoinError (JoinResult S)).AffordedBy d)
    (hwide : (j.execute keying left right : DeviceM JoinError (JoinResult T)).AffordedBy d) :
    SameOutcome (j.execute keying left right d : EStateM.Result JoinError Device (JoinResult S))
      (j.execute keying left right d : EStateM.Result JoinError Device (JoinResult T)) := by
  rcases h.execute_cases keying hleft hright hd with
    ⟨e, d', he, hkind⟩ | hsame | ⟨e, -, d₁, -, he, hkind, -⟩
  · exact absurd hkind (hwide e d' he)
  · exact hsame
  · exact absurd hkind (hnarrow e d₁ he)

/-- Where the join with wider row numbers returns, so does the other. -/
theorem sameOutcome_of_ok (hd : d.OneWorker) {r : JoinResult T} {d' : Device}
    (hr : j.execute keying left right d = .ok r d') :
    SameOutcome (j.execute keying left right d : EStateM.Result JoinError Device (JoinResult S))
      (j.execute keying left right d : EStateM.Result JoinError Device (JoinResult T)) := by
  rcases h.execute_cases (j := j) keying hleft hright hd with
    ⟨e, d₁, he, -⟩ | hsame | ⟨-, e, -, d₁, -, -, he, -⟩
  · cases hr.symm.trans he
  · exact hsame
  · cases hr.symm.trans he

end Widens
end HashJoin
end GridOps
