import GridOps.Proofs.Join.Outcome
import Mathlib.Tactic.Ring

/-!
The memory that a join needs.

A join that returns takes the most memory when its last buffer is full and is being split, or, if
nothing is found, while its table is being built.  With so many bytes free it returns the same, and
with fewer it is out of memory (`execute_peak`).
-/

namespace GridOps

/-- The most bytes that a join with these statistics has taken at a time, for the bytes of a slot
and of a row number and the number of result rows. -/
def JoinStatistics.peakBytes (st : JoinStatistics) (slotBytes rowBytes rows : Nat) : Nat :=
  match st.estimate?, st.finalState with
  | none, _ => 0
  | some _, .empty => st.tableCapacity * slotBytes + 16
  | some _, .done => st.tableCapacity * slotBytes + 8 + 2 * rowBytes * (st.outputCapacity + rows)

/-- The most bytes that a join with this result has taken at a time.  A slot holds a key and a row
number, both as wide as the wider of the two. -/
def JoinResult.peakBytes (K : Type) {S : Type} [JoinKey K] [Word S] (r : JoinResult S) : Nat :=
  r.statistics.peakBytes (if (JoinKey.type K).bytes = 4 ∧ Word.bytes S = 4 then 8 else 16)
    (Word.bytes S) r.len

theorem JoinError.eq_of_kind_outOfMemory {e : JoinError} (h : e.kind = .outOfMemory) :
    ∃ requested available, e = .device (.outOfMemory requested available) := by
  cases e with
  | device e =>
    cases e with
    | outOfMemory requested available => exact ⟨requested, available, rfl⟩
    | _ => cases h
  | _ => cases h

theorem JoinResult.statistics_eq {S T : Type} {r : JoinResult S} {r' : JoinResult T}
    (h : r'.unflipped = r.unflipped) (hflipped : r'.statistics.flipped = r.statistics.flipped) :
    r'.statistics = r.statistics := by
  have hthis : r.statistics = { r.unflipped with flipped := r.statistics.flipped } := rfl
  have hthat : r'.statistics = { r'.unflipped with flipped := r'.statistics.flipped } := rfl
  rw [hthat, hthis, h, hflipped]

namespace HashJoin

/-! ## What a plan that returns needs -/

section Plans

variable {j : HashJoin} {w : Load} {free : Nat}

theorem countPlan_needs {len n : Nat} (h : (j.countPlan w len).ends free = .ok n) :
    (j.countPlan w len).Needs 0 n := by
  obtain ⟨_, hlaunch, h⟩ := Plan.bind_ok h
  cases h
  exact (Plan.launch_needs (Plan.launch_ok hlaunch)).bind (.pure _)

theorem extrapolatePlan_needs {s : Sample} {rest : List Sample} {rounds : Nat} {e : Estimate}
    (h : (j.extrapolatePlan w s rest rounds).ends free = .ok e) :
    (j.extrapolatePlan w s rest rounds).Needs 0 e := by
  induction rest generalizing s rounds with
  | nil =>
    unfold extrapolatePlan at h ⊢
    obtain ⟨n, hcount, h⟩ := Plan.bind_ok h
    refine .of_eq ((countPlan_needs hcount).bind ?_) (Nat.max_self 0)
    dsimp only at h ⊢
    split at h
    · cases h
    · rename_i hword
      refine .of_neg hword ?_
      split at h <;> cases h
      · rename_i hsome
        exact .of_pos hsome (.pure _)
      · rename_i hnone
        exact .of_neg hnone (.pure _)
  | cons next rest ih =>
    unfold extrapolatePlan at h ⊢
    obtain ⟨n, hcount, h⟩ := Plan.bind_ok h
    refine .of_eq ((countPlan_needs hcount).bind ?_) (Nat.max_self 0)
    dsimp only at h ⊢
    split at h
    · cases h
    · rename_i hword
      refine .of_neg hword ?_
      split at h
      · rename_i hsome
        cases h
        exact .of_pos hsome (.pure _)
      · rename_i hnone
        exact .of_neg hnone (ih h)

theorem estimatePlan_needs (hprobe : w.probeRows ≠ 0) {e : Estimate}
    (h : (j.estimatePlan w).ends free = .ok e) :
    (j.estimatePlan w).Needs DeviceM.counterBytes e := by
  unfold estimatePlan at h ⊢
  rw [if_neg hprobe] at h ⊢
  exact Plan.withCounter_needs (extrapolatePlan_needs (Plan.withCounter_ok h))

theorem splitPlan_needs {rows rowBytes : Nat}
    (h : (j.splitPlan rows rowBytes).ends free = .ok ()) :
    (j.splitPlan rows rowBytes).Needs (2 * rows * rowBytes) () := by
  unfold splitPlan at h ⊢
  obtain ⟨_, hallocate, h⟩ := Plan.bind_ok h
  have hlaunch := Plan.launch_needs (Plan.launch_ok h)
  exact .of_eq ((Plan.allocate_needs (Plan.allocate_ok hallocate).1).hold hlaunch) (Nat.add_zero _)

theorem finishPlan_needs {slots found : Nat} {fits : Bool}
    (h : (j.finishPlan w slots).ends free = .ok (found, fits)) :
    found = w.rows ∧ (fits = true ↔ w.rows ≤ slots) ∧
      (j.finishPlan w slots).Needs (if fits then 2 * w.rows * w.rowBytes else 0) (found, fits) := by
  unfold finishPlan at h ⊢
  split at h
  · rename_i hfits
    obtain ⟨_, hsplit, h⟩ := Plan.bind_ok h
    cases h
    rw [if_pos hfits]
    exact ⟨rfl, iff_of_true rfl hfits, .of_eq ((splitPlan_needs hsplit).bind (.pure _)) (by simp)⟩
  · rename_i hmissing
    cases h
    rw [if_neg hmissing]
    exact ⟨rfl, iff_of_false Bool.false_ne_true hmissing, .pure _⟩

theorem attemptPlan_needs {slots found : Nat} {fits : Bool}
    (h : (j.attemptPlan w slots).ends free = .ok (found, fits)) :
    found = w.rows ∧ (fits = true ↔ w.rows ≤ slots) ∧
      (j.attemptPlan w slots).Needs
        (2 * w.rowBytes * (slots + if fits then w.rows else 0)) (found, fits) := by
  obtain ⟨_, hallocate, h⟩ := Plan.bind_ok h
  obtain ⟨_, hlaunch, h⟩ := Plan.bind_ok h
  obtain ⟨hfound, hfits, hfinish⟩ := finishPlan_needs h
  refine ⟨hfound, hfits, .of_eq ((Plan.allocate_needs (Plan.allocate_ok hallocate).1).hold
    ((Plan.launch_needs (Plan.launch_ok hlaunch)).bind hfinish)) ?_⟩
  cases fits <;> simp <;> ring

/-- Doubling a buffer that is too small, with rows that the limit allows, makes it larger. -/
theorem le_clamp_double {rows slots : Nat} (h : j.checkLimit rows = .ok ())
    (hslots : slots < rows) : slots ≤ j.clamp (slots * 2) := by
  unfold checkLimit at h
  unfold clamp
  cases hmax : j.maxRows? with
  | none =>
    dsimp only
    omega
  | some limit =>
    rw [hmax] at h
    dsimp only at h ⊢
    split at h
    · cases h
    · omega

theorem growPlan_needs {left retries slots : Nat} {grown : Nat × Nat}
    (h : (j.growPlan w left retries slots).ends free = .ok grown) :
    slots ≤ grown.2 ∧
      (j.growPlan w left retries slots).Needs (2 * w.rowBytes * (grown.2 + w.rows)) grown := by
  induction left using Nat.strongRecOn generalizing retries slots with
  | ind left ih =>
    unfold growPlan at h ⊢
    obtain ⟨⟨found, fits⟩, hattempt, h⟩ := Plan.bind_ok h
    obtain ⟨rfl, hfits, hneeds⟩ := attemptPlan_needs hattempt
    cases fits with
    | true =>
      cases h
      exact ⟨Nat.le_refl _, .of_eq (hneeds.bind (.pure _)) (by simp)⟩
    | false =>
      obtain ⟨_, hlimit, h⟩ := Plan.bind_ok h
      cases left with
      | zero => cases h
      | succ left =>
        dsimp only at h
        split at h
        · cases h
        · rename_i hword
          have hcheck := Plan.ofExcept_ok hlimit
          have hmissing : slots < w.rows := Nat.lt_of_not_le fun hle =>
            Bool.false_ne_true (hfits.mpr hle)
          obtain ⟨hle, hrest⟩ := ih left (Nat.lt_succ_self left) h
          have hslots := Nat.le_trans (le_clamp_double hcheck hmissing) hle
          have hnext : (do
              Plan.ofExcept JoinError.kind (j.checkLimit w.rows)
              if Device.maxBytes < slots * 2 then Plan.fail .integerOverflow
              else j.growPlan w left (retries + 1) (j.clamp (slots * 2))).Needs
              (2 * w.rowBytes * (grown.2 + w.rows)) grown := by
            rw [if_neg hword]
            exact .of_eq ((Plan.ofExcept_needs hcheck).bind hrest) (Nat.zero_max _)
          -- The smaller buffer is given back before the larger one is taken.
          refine ⟨hslots, .of_eq (hneeds.bind hnext) (Nat.max_eq_right ?_)⟩
          exact Nat.mul_le_mul_left _ (Nat.le_trans hslots (Nat.le_add_right ..))

/-- What probing takes beside the table: for the estimate a counter, and for a result the counter of
its rows, the last buffer and the rows themselves. -/
theorem probeTablePlan_needs (hprobe : w.probeRows ≠ 0) {capacity : Nat} {st : JoinStatistics}
    (h : (j.probeTablePlan w capacity).ends free = .ok st) :
    ∃ e, st.estimate? = some e ∧ st.tableCapacity = capacity ∧
      ((st.finalState = .empty ∧ (j.probeTablePlan w capacity).Needs 8 st) ∨
        (st.finalState = .done ∧ (j.probeTablePlan w capacity).Needs
          (8 + 2 * w.rowBytes * (st.outputCapacity + w.rows)) st)) := by
  have hcounter : DeviceM.counterBytes = 8 := rfl
  unfold probeTablePlan at h ⊢
  obtain ⟨e, hestimate, h⟩ := Plan.bind_ok h
  have hneeds := estimatePlan_needs hprobe hestimate
  split at h
  · rename_i hnone
    cases h
    exact ⟨e, rfl, rfl, Or.inl ⟨rfl,
      .of_eq (hneeds.bind (.of_pos hnone (.pure _))) (Nat.max_zero _)⟩⟩
  · rename_i hsome
    obtain ⟨grown, hgrown, h⟩ := Plan.bind_ok (Plan.withCounter_ok h)
    cases h
    have hrest := Plan.withCounter_needs
      (Plan.Needs.bind (growPlan_needs hgrown).2 (f := fun grown => pure
        (⟨.done, false, capacity, some e, grown.1, grown.2⟩ : JoinStatistics)) (.pure _))
    refine ⟨e, rfl, rfl, Or.inr ⟨rfl, .of_eq (hneeds.bind (.of_neg hsome hrest)) ?_⟩⟩
    dsimp only
    omega

theorem buildPlan_needs {block : UInt32} {rows : Nat} {reserved : Bool}
    (h : (buildPlan block rows reserved).ends free = .ok ()) :
    (buildPlan block rows reserved).Needs (if rows = 0 then 0 else 16) () := by
  unfold buildPlan at h ⊢
  split at h
  · rename_i hnone
    rw [if_pos hnone, if_pos hnone]
    exact .pure ()
  · rename_i hsome
    rw [if_neg hsome, if_neg hsome]
    obtain ⟨_, hfill, h⟩ := Plan.bind_ok h
    obtain ⟨_, hlaunch, -⟩ := Plan.bind_ok hfill
    cases reserved with
    | false => exact (fillPlan_needs (Plan.launch_ok hlaunch)).bind (.pure ())
    | true => cases h

/-- The table is held while it is built and then while it is probed. -/
theorem executePlan_needs_table {reserved : Bool} {slotBytes capacity build probe : Nat}
    {st : JoinStatistics}
    (hrows : ¬(w.probeRows = 0 ∨ (w.buildRows = 0 ∧ j.joinType = .inner)))
    (hcapacity : Multimap.capacityFor w.buildRows j.occupancy = .ok capacity)
    (hhost : capacity * slotBytes ≤ maxHostBytes)
    (hbuild : (buildPlan j.block w.buildRows reserved).Needs build ())
    (hprobe : (j.probeTablePlan w capacity).Needs probe st) :
    (j.executePlan w reserved slotBytes).Needs (capacity * slotBytes + max build probe) st := by
  unfold executePlan
  rw [if_neg hrows]
  refine .of_eq ((Plan.ofExcept_needs hcapacity).bind ?_) (Nat.zero_max _)
  exact (Plan.allocate_needs hhost).hold (hbuild.bind hprobe)

/-- A join that returns needs its peak.  In a left join every probe row has a result row, so if
nothing is found the build side has rows, and its counters are the last that was taken. -/
theorem executePlan_needs {reserved : Bool} {slotBytes : Nat} {st : JoinStatistics}
    (hwidth : 4 ≤ w.rowBytes) (hleft : j.joinType = .left → 0 < w.probeRows → 0 < w.rows)
    (hstate : st.finalState = .empty ↔ w.rows = 0)
    (h : (j.executePlan w reserved slotBytes).ends free = .ok st) :
    (j.executePlan w reserved slotBytes).Needs (st.peakBytes slotBytes w.rowBytes w.rows) st := by
  by_cases hrows : w.probeRows = 0 ∨ (w.buildRows = 0 ∧ j.joinType = .inner)
  · unfold executePlan at h ⊢
    rw [if_pos hrows] at h ⊢
    cases h
    exact .pure _
  · have hplan := h
    unfold executePlan at hplan
    rw [if_neg hrows] at hplan
    obtain ⟨capacity, hcapacity, hplan⟩ := Plan.bind_ok hplan
    obtain ⟨_, hallocate, hplan⟩ := Plan.bind_ok hplan
    obtain ⟨_, hbuild, hprobe⟩ := Plan.bind_ok hplan
    obtain ⟨e, hestimate, rfl, hcases⟩ := probeTablePlan_needs (not_or.mp hrows).1 hprobe
    have htable := fun {bytes : Nat} (hneeds : (j.probeTablePlan w _).Needs bytes st) =>
      executePlan_needs_table hrows (Plan.ofExcept_ok hcapacity) (Plan.allocate_ok hallocate).1
        (buildPlan_needs hbuild) hneeds
    rcases hcases with ⟨hempty, hneeds⟩ | ⟨hdone, hneeds⟩
    · refine .of_eq (htable hneeds) ?_
      have hbuilt : w.buildRows ≠ 0 := by
        intro hzero
        cases htype : j.joinType with
        | inner => exact hrows (Or.inr ⟨hzero, htype⟩)
        | left =>
          have hpos := hleft htype (Nat.pos_of_ne_zero (not_or.mp hrows).1)
          have hnone := hstate.mp hempty
          omega
      simp only [JoinStatistics.peakBytes, hestimate, hempty, if_neg hbuilt]
      omega
    · refine .of_eq (htable hneeds) ?_
      have hfound : w.rows ≠ 0 := fun hzero => by
        rw [hstate.mpr hzero] at hdone
        cases hdone
      have hword : 4 * 1 ≤ w.rowBytes * (st.outputCapacity + w.rows) :=
        Nat.mul_le_mul hwidth (by omega)
      simp only [JoinStatistics.peakBytes, hestimate, hdone, Nat.mul_assoc]
      split <;> omega

end Plans

/-! ## The same join with another amount of free memory -/

variable {K S : Type} [JoinKey K] [Word S] {j : HashJoin} {keying : Keying K}
  {left right : KeyColumns K} {d d' : Device}

theorem tableOn_congr (keying : Keying K) (keys : Array K)
    (h : ∀ l len, d'.rowOrder l len = d.rowOrder l len) :
    j.tableOn S keying keys d' = j.tableOn S keying keys d := by
  unfold tableOn
  split <;> simp only [h]

/-- With a lawful keying the load of a join does not depend on the order in which its table is
built. -/
theorem Prepared.loadOn_eq {capacity : Nat} {table : Multimap K S} {d₁ : Device}
    (h : Prepared j keying left right d capacity table d₁) (hd : d.RunsAll) (hd' : d'.RunsAll)
    (hsame : keying.Lawful ∨ ∀ l len, d'.rowOrder l len = d.rowOrder l len) :
    j.loadOn S keying left right d' = j.loadOn S keying left right d := by
  rcases hsame with hlaw | horder
  · have hkeys := h.reserved_notMem hd
    have hsize := capacityFor_ok h.slots
    obtain ⟨l, hl⟩ := h.exists_launch
    refine Load.ext rfl rfl (funext fun len => ?_) rfl
    rw [found_loadOn h.accepted hlaw hkeys hsize hl hd',
      found_loadOn h.accepted hlaw hkeys hsize hl hd]
  · rw [loadOn, tableOn_congr _ _ horder, loadOn]

/-- The plan of a join that returns needs the peak of its result. -/
theorem Prepared.needs_peak {capacity : Nat} {table : Multimap K S} {d₁ d₂ : Device}
    (h : Prepared j keying left right d capacity table d₁) (hd : d.RunsAll)
    (hwidth : Word.bytes S = 4 ∨ Word.bytes S = 8)
    (hprobed : (j.probed left right).len + UInt32.size ≤ UInt64.size)
    (hrows : (j.loadOn S keying left right d).rows < UInt64.size) {r : JoinResult S}
    (hr : j.execute keying left right d = .ok r d₂) :
    (j.executePlan (j.loadOn S keying left right d)
      (decide (JoinKey.reserved K ∈ (j.built left right).keys)) (Multimap.slotBytes K S)).Needs
      (r.peakBytes K) r.unflipped := by
  obtain ⟨hlen, -, hstate, -⟩ := h.returns hd hprobed hrows hr
  have hplan := (execute_follows h.accepted hprobed hrows hd).symm.trans (DeviceM.ending_of_ok hr)
  have hunflipped : r.unflipped.finalState = .empty ↔
      (j.loadOn S keying left right d).rows = 0 := hstate
  have hneeds := executePlan_needs (by rw [rowBytes_loadOn]; omega) rows_loadOn_pos hunflipped hplan
  rw [rowBytes_loadOn, ← hlen] at hneeds
  rw [JoinResult.peakBytes, ← Multimap.slotBytes_eq hwidth]
  exact hneeds

/-- Two joins of the same sides return the same rows, if the keying is lawful or the tables are
built in the same order. -/
theorem Prepared.rowPairs_perm {capacity capacity' : Nat} {table table' : Multimap K S}
    {d₁ d₁' d₂ d₂' : Device} (h : Prepared j keying left right d capacity table d₁)
    (h' : Prepared j keying left right d' capacity' table' d₁') (hd : d.RunsAll) (hd' : d'.RunsAll)
    (hsame : keying.Lawful ∨ ∀ l len, d'.rowOrder l len = d.rowOrder l len)
    (hprobed : (j.probed left right).len + UInt32.size ≤ UInt64.size)
    (hrows : (j.loadOn S keying left right d).rows < UInt64.size) {r r' : JoinResult S}
    (hr : j.execute keying left right d = .ok r d₂)
    (hr' : j.execute keying left right d' = .ok r' d₂') :
    r'.rowPairs.Perm r.rowPairs ∧ (d.OneWorker → d'.OneWorker → r'.rowPairs = r.rowPairs) := by
  have hload := h.loadOn_eq hd hd' hsame
  obtain ⟨-, -, -, taken, htaken, hread⟩ := h.returns hd hprobed hrows hr
  obtain ⟨-, -, -, taken', htaken', hread'⟩ := h'.returns hd' hprobed (hload ▸ hrows) hr'
  rw [hread, hread']
  rcases hsame with hlaw | horder
  · refine ⟨((h'.emissions_perm hd' hlaw htaken'.perm).trans
      (h.emissions_perm hd hlaw htaken.perm).symm).map _, fun hone hone' => ?_⟩
    rw [htaken.ascending hone, htaken'.ascending hone', h.emissions_eq hone hlaw,
      h'.emissions_eq hone' hlaw]
  · have htable : table' = table := by
      rw [h.eq_tableOn, h'.eq_tableOn, tableOn_congr _ _ horder]
    rw [htable]
    refine ⟨((j.prober.emissions_perm table _ _ (htaken'.perm.trans htaken.perm.symm)).map _).map _,
      fun hone hone' => ?_⟩
    rw [htaken.ascending hone, htaken'.ascending hone']

/-- The same join on a device with other free memory returns the same if its peak is free, and is
out of memory if not.  The rows must be few enough to be counted in a word. -/
theorem execute_peak (hwidth : Word.bytes S = 4 ∨ Word.bytes S = 8) (hleft : left.InMemory)
    (hright : right.InMemory) (hd : d.RunsAll) (hd' : d'.RunsAll)
    (hsame : keying.Lawful ∨ ∀ l len, d'.rowOrder l len = d.rowOrder l len)
    (hrows : ∀ capacity (table : Multimap K S) d₂,
      Prepared j keying left right d capacity table d₂ →
      j.rowsFound table (j.probed left right) (j.built left right) < UInt64.size)
    {r : JoinResult S} {d₁ : Device} (h : j.execute keying left right d = .ok r d₁) :
    (r.peakBytes K ≤ d'.available → ∃ (r' : JoinResult S) (d₂ : Device),
      j.execute keying left right d' = .ok r' d₂ ∧ r'.statistics = r.statistics ∧
      r'.len = r.len ∧ r'.rowPairs.Perm r.rowPairs ∧
      (d.OneWorker → d'.OneWorker → r'.rowPairs = r.rowPairs)) ∧
    (d'.available < r.peakBytes K → ∃ requested available d₂,
      (j.execute keying left right d' : EStateM.Result JoinError Device (JoinResult S)) =
        .error (.device (.outOfMemory requested available)) d₂) := by
  rcases prepare_cases S j keying left right d with
    ⟨e, d₂, -, hfails⟩ | ⟨haccepted, htrivial⟩ | ⟨capacity, table, d₂, hprepared⟩
  · cases (hfails _ _).symm.trans h
  · rw [execute_of_trivial haccepted htrivial] at h
    cases h
    exact ⟨fun _ => ⟨_, _, execute_of_trivial haccepted htrivial d', rfl, rfl, .refl _,
      fun _ _ => rfl⟩, fun hless => absurd hless (Nat.not_lt_zero _)⟩
  · have hprobed := (probed_of hleft hright j).len_le
    have hload := hprepared.loadOn_eq hd hd' hsame
    have hrows := hprepared.rowsFound_eq ▸ hrows capacity table d₂ hprepared
    have hneeds := hprepared.needs_peak hd hwidth hprobed hrows h
    have hfollows := execute_follows (d := d') hprepared.accepted hprobed (hload ▸ hrows) hd'
    rw [hload] at hfollows
    refine ⟨fun henough => ?_, fun hless => ?_⟩
    · obtain ⟨r', d₃, hr', hsame'⟩ := DeviceM.ending_ok (hfollows.trans (hneeds.ok henough))
      rcases prepare_cases S j keying left right d' with
        ⟨e, d₄, -, hfails⟩ | ⟨-, htrivial⟩ | ⟨capacity', table', d₄, hprepared'⟩
      · cases (hfails _ _).symm.trans hr'
      · exact absurd htrivial hprepared.rows
      · obtain ⟨hlen, hflip, -⟩ := hprepared.returns hd hprobed hrows h
        obtain ⟨hlen', hflip', -⟩ := hprepared'.returns hd' hprobed (hload ▸ hrows) hr'
        refine ⟨r', d₃, hr', ?_, by rw [hlen, hlen', hload],
          hprepared.rowPairs_perm hprepared' hd hd' hsame hprobed hrows h hr'⟩
        exact JoinResult.statistics_eq hsame' (hflip'.trans hflip.symm)
    · obtain ⟨e, d₃, he, hkind⟩ := DeviceM.ending_error (hfollows.trans (hneeds.error hless))
      obtain ⟨requested, available, rfl⟩ := JoinError.eq_of_kind_outOfMemory hkind
      exact ⟨requested, available, d₃, he⟩

/-- A table of four slots, and a buffer for eight rows that holds six. -/
theorem execute_peak_skewed :
    ∃ (r : JoinResult UInt32) (d : Device),
      sampledJoin.execute .default skewedLeft skewedRight (.forwards 1000) = .ok r d ∧
      r.peakBytes UInt32 = 4 * 8 + 8 + 2 * 4 * (8 + 6) ∧
      (∃ (r' : JoinResult UInt32) (d₁ : Device),
        sampledJoin.execute .default skewedLeft skewedRight (.backwards 152) = .ok r' d₁ ∧
        r'.statistics = r.statistics ∧ r'.rowPairs.Perm r.rowPairs) ∧
      ∃ requested available d₂, (sampledJoin.execute .default skewedLeft skewedRight
        (.backwards 151) : EStateM.Result JoinError Device (JoinResult UInt32)) =
        .error (.device (.outOfMemory requested available)) d₂ := by
  obtain ⟨r, d, h, hbytes⟩ := DeviceM.exists_of_returns
    (fun r : JoinResult UInt32 => decide (r.peakBytes UInt32 = 152))
    (sampledJoin.execute (S := UInt32) .default skewedLeft skewedRight (.forwards 1000))
    (by decide +kernel)
  have hbytes := of_decide_eq_true hbytes
  have hrows : ∀ capacity (table : Multimap UInt32 UInt32) d₂,
      Prepared sampledJoin .default skewedLeft skewedRight (.forwards 1000) capacity table d₂ →
      sampledJoin.rowsFound table (sampledJoin.probed skewedLeft skewedRight)
        (sampledJoin.built skewedLeft skewedRight) < UInt64.size := fun _ _ _ hprepared => by
    rw [rowsFound, hprepared.length_emissions (Device.forwards_oneWorker 1000).runsAll
      Keying.default_lawful]
    decide +kernel
  have hpeak := fun bytes => execute_peak (Or.inl rfl) (by decide) (by decide)
    (Device.forwards_oneWorker 1000).runsAll (Device.backwards_runsAll bytes)
    (Or.inl Keying.default_lawful) hrows h
  obtain ⟨r', d₁, hr', hstatistics, -, hperm, -⟩ :=
    (hpeak 152).1 (by rw [hbytes]; decide)
  exact ⟨r, d, h, hbytes, ⟨r', d₁, hr', hstatistics, hperm⟩, (hpeak 151).2 (by rw [hbytes]; decide)⟩

end HashJoin
end GridOps
