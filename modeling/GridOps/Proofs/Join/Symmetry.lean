import GridOps.Proofs.Join.Failure

/-!
Exchanging the sides of a join.

An inner join that builds over the smaller side has the same outcome if its sides are exchanged
(`execute_swap`).  If one side is longer, both joins probe it.  If neither is, they build over
different sides; but then all rows are counted before the first attempt, and the course of the join
depends on their number only.
-/

namespace GridOps

theorem Sample.first_self (len : Nat) {threshold : Nat} (h : threshold ≠ 0) :
    first len len threshold = ⟨len, 1⟩ := by
  have hle : len ≤ len * threshold := Nat.le_mul_of_pos_right len (Nat.pos_of_ne_zero h)
  exact if_neg fun hsampled => Nat.not_lt_of_le hle hsampled.2.2

theorem Sample.doublings_whole (len fuel ratio : Nat) : doublings len fuel ⟨len, ratio⟩ = [] :=
  doublings_of_whole ⟨len, ratio⟩ rfl fuel

namespace KeyColumns

variable {K : Type} {left right : KeyColumns K}

theorem Mismatched.symm (h : left.Mismatched right) : right.Mismatched left := by
  rcases h with h | h | h | ⟨c, hc, h⟩
  · exact Or.inr (Or.inl h)
  · exact Or.inl h
  · exact Or.inr (Or.inr (Or.inl h.symm))
  · refine Or.inr (Or.inr (Or.inr ⟨c.swap, ?_, h.symm⟩))
    rw [← List.zip_swap]
    exact List.mem_map_of_mem hc

/-- A side as a join asks for it: of moderate length, and without a reserved key. -/
structure Regular [JoinKey K] (side : KeyColumns K) : Prop where
  short : side.len < UInt32.size - 1
  unreserved : JoinKey.reserved K ∉ side.keys

end KeyColumns

namespace HashJoin

/-! ## Joins that count all rows first -/

section Plans

variable {j : HashJoin} {w w' : Load}

theorem growPlan_congr (hprobe : w'.probeRows = w.probeRows) (hbytes : w'.rowBytes = w.rowBytes)
    (hrows : w'.rows = w.rows) (left retries slots : Nat) :
    j.growPlan w' left retries slots = j.growPlan w left retries slots := by
  have hattempt : ∀ slots, j.attemptPlan w' slots = j.attemptPlan w slots := fun slots => by
    simp only [attemptPlan, finishPlan, hprobe, hbytes, hrows]
  induction left generalizing retries slots with
  | zero => simp only [growPlan, hattempt]
  | succ left ih => simp only [growPlan, hattempt, ih]

/-- Between sides of the same length nothing is extrapolated. -/
theorem estimatePlan_congr (hprobe : w'.probeRows = w.probeRows)
    (hbuild : w'.buildRows = w.buildRows) (hrows : w'.rows = w.rows)
    (hequal : w.buildRows = w.probeRows) : j.estimatePlan w' = j.estimatePlan w := by
  have hcount : j.countPlan w' w.probeRows = j.countPlan w w.probeRows := by
    have hfound : w'.found w'.probeRows = w.found w.probeRows := hrows
    rw [hprobe] at hfound
    unfold countPlan
    rw [hfound, hprobe]
  simp only [estimatePlan, hprobe, hbuild, hequal, Sample.first_self _ j.threshold_ne,
    Sample.doublings_whole, extrapolatePlan, hcount]

/-- The course of a join between sides of the same length depends on the number of result rows. -/
theorem executePlan_congr (hprobe : w'.probeRows = w.probeRows)
    (hbuild : w'.buildRows = w.buildRows) (hbytes : w'.rowBytes = w.rowBytes)
    (hrows : w'.rows = w.rows) (hequal : w.buildRows = w.probeRows) (reserved : Bool)
    (slotBytes : Nat) :
    j.executePlan w' reserved slotBytes = j.executePlan w reserved slotBytes := by
  simp only [executePlan, probeTablePlan, hprobe, hbuild,
    estimatePlan_congr hprobe hbuild hrows hequal, growPlan_congr hprobe hbytes hrows]

end Plans

/-! ## Exchanging the sides -/

variable {K S : Type} [Word S] {j : HashJoin} {left right : KeyColumns K}

/-- The longer side is probed. -/
theorem sides_swap (htype : j.joinType = .inner) (hside : j.buildSide = .smaller)
    (h : left.len ≠ right.len) :
    j.probed right left = j.probed left right ∧ j.built right left = j.built left right := by
  rcases Nat.lt_or_gt_of_ne h with hlt | hgt
  · simp [probed, built, flips, htype, hside, hlt, Nat.lt_asymm hlt]
  · simp [probed, built, flips, htype, hside, hgt, Nat.lt_asymm hgt]

/-- Of sides of the same length the right one is built over. -/
theorem sides_of_equal (h : left.len = right.len) :
    j.probed left right = left ∧ j.built left right = right := by
  simp [probed, built, flips, h]

/-- Exchanged sides have exchanged rows. -/
theorem resultRows_swap {equal : K → K → Bool} (htype : j.joinType = .inner)
    (hc : left.Compatible right) (hsym : ∀ a b, equal a b = equal b a) :
    ((j.resultRows equal right left).map (NestedLoop.oriented true)).Perm
      (j.resultRows equal left right) := by
  have hswapped := resultRows_perm (j := j) hc.symm hsym
  have hrows := resultRows_perm (j := j) hc hsym
  rw [htype] at hswapped hrows
  exact ((hswapped.map _).trans (NestedLoop.map_oriented_join_perm hc hsym)).trans hrows.symm

variable [JoinKey K] {keying : Keying K} {d d' : Device}

theorem found_of_regular (h : Accepted S left right) (hleft : left.Regular) (hright : right.Regular)
    (hlaw : keying.Lawful) (hd : d.RunsAll) (len : Nat) :
    (j.loadOn S keying left right d).found len =
      (NestedLoop.join j.joinType keying.equal (j.probed left right) (j.built left right)
        (min len (j.probed left right).len)).length := by
  have hbuilt := built_of (P := KeyColumns.Regular) hleft hright j
  have hshort : (j.built left right).keys.size < UInt32.size - 1 := hbuilt.short
  have hblock := Launch.toNat_pos j.block_ne
  obtain ⟨l, hl, -⟩ := Launch.exists_forLen_covers j.block_ne (Nat.le_trans
    (Nat.le_of_lt hshort) (Nat.le_mul_of_pos_right _ hblock))
  exact found_loadOn h hlaw hbuilt.unreserved (add_size_le hshort) hl hd len

theorem rows_of_regular (h : Accepted S left right) (hleft : left.Regular) (hright : right.Regular)
    (hlaw : keying.Lawful) (hd : d.RunsAll) :
    (j.loadOn S keying left right d).rows = (j.resultRows keying.equal left right).length := by
  rw [Load.rows, found_of_regular h hleft hright hlaw hd, probeRows_loadOn, Nat.min_self,
    resultRows, List.length_map]

theorem rowPairs_of_regular (hleft : left.Regular) (hright : right.Regular)
    (hlaw : keying.Lawful) (hd : d.RunsAll) {r : JoinResult S}
    (hr : j.execute keying left right d = .ok r d') :
    r.rowPairs.Perm (j.resultRows keying.equal left right) := by
  have hprobed := (probed_of (P := KeyColumns.Regular) hleft hright j).short
  refine (execute_rows hlaw (add_size_le hprobed) ?_ hd hr).1
  rw [← rows_of_regular (execute_accepted hr) hleft hright hlaw hd]
  exact rows_loadOn_lt keying hleft.short hright.short hd

/-- Both joins take the same course. -/
theorem executePlan_swap (htype : j.joinType = .inner) (hside : j.buildSide = .smaller)
    (h : Accepted S left right) (h' : Accepted S right left) (hleft : left.Regular)
    (hright : right.Regular) (hlaw : keying.Lawful)
    (hsym : ∀ a b, keying.equal a b = keying.equal b a) (hd : d.RunsAll) (hd' : d'.RunsAll)
    (reserved : Bool) (slotBytes : Nat) :
    j.executePlan (j.loadOn S keying right left d') reserved slotBytes =
      j.executePlan (j.loadOn S keying left right d) reserved slotBytes := by
  by_cases hlen : left.len = right.len
  · -- The tables differ, but not the numbers of rows that decide.
    obtain ⟨hprobed, hbuilt⟩ := sides_of_equal (j := j) hlen
    obtain ⟨hprobed', hbuilt'⟩ := sides_of_equal (j := j) hlen.symm
    have hrows := (resultRows_swap htype (KeyColumns.validate_ok h.valid) hsym).length_eq
    rw [List.length_map] at hrows
    refine executePlan_congr ?_ ?_ ?_ ?_ ?_ reserved slotBytes
    · rw [probeRows_loadOn, probeRows_loadOn, hprobed, hprobed', hlen]
    · rw [buildRows_loadOn, buildRows_loadOn, hbuilt, hbuilt', hlen]
    · rw [rowBytes_loadOn, rowBytes_loadOn]
    · rw [rows_of_regular h hleft hright hlaw hd, rows_of_regular h' hright hleft hlaw hd', hrows]
    · rw [probeRows_loadOn, buildRows_loadOn, hprobed, hbuilt, hlen]
  · obtain ⟨hprobed, hbuilt⟩ := sides_swap htype hside hlen
    have hload : j.loadOn S keying right left d' = j.loadOn S keying left right d := by
      refine Load.ext ?_ ?_ (funext fun len => ?_) rfl
      · rw [probeRows_loadOn, probeRows_loadOn, hprobed]
      · rw [buildRows_loadOn, buildRows_loadOn, hbuilt]
      · rw [found_of_regular h hleft hright hlaw hd, found_of_regular h' hright hleft hlaw hd',
          hprobed, hbuilt]
    rw [hload]

/-- An inner join that builds over the smaller side has the same outcome if its sides are exchanged
and as much memory is free, whatever the order of the threads. -/
theorem execute_swap (hwidth : 4 ≤ Word.bytes S) (htype : j.joinType = .inner)
    (hside : j.buildSide = .smaller) (hleft : left.Regular) (hright : right.Regular)
    (hlaw : keying.Lawful) (hsym : ∀ a b, keying.equal a b = keying.equal b a) (hd : d.RunsAll)
    (hd' : d'.RunsAll) (hfree : d'.available = d.available) :
    (∃ e e' d₁ d₂,
      (j.execute keying left right d : EStateM.Result JoinError Device (JoinResult S)) =
        .error e d₁ ∧
      (j.execute keying right left d' : EStateM.Result JoinError Device (JoinResult S)) =
        .error e' d₂ ∧ e'.kind = e.kind) ∨
    (∃ (r r' : JoinResult S) (d₁ d₂ : Device), j.execute keying left right d = .ok r d₁ ∧
      j.execute keying right left d' = .ok r' d₂ ∧
      (r'.rowPairs.map (NestedLoop.oriented true)).Perm r.rowPairs ∧
      r'.statistics = { r.statistics with flipped := r'.statistics.flipped }) := by
  by_cases hmatch : left.Mismatched right
  · obtain ⟨e, he, hkind⟩ := execute_of_mismatch S j keying hmatch d
    obtain ⟨e', he', hkind'⟩ := execute_of_mismatch S j keying hmatch.symm d'
    exact Or.inl ⟨e, e', d, d', he, he', hkind'.trans hkind.symm⟩
  · have hmatch' : ¬right.Mismatched left := fun h => hmatch h.symm
    have haccepted := accepted_of_match hwidth hleft.short hright.short hmatch
    have haccepted' := accepted_of_match hwidth hright.short hleft.short hmatch'
    have hfollows := execute_follows_of_match j keying hwidth hleft.short hright.short hmatch hd
    have hfollows' := execute_follows_of_match j keying hwidth hright.short hleft.short hmatch' hd'
    have hkeys := (built_of (P := KeyColumns.Regular) hleft hright j).unreserved
    have hkeys' := (built_of (P := KeyColumns.Regular) hright hleft j).unreserved
    rw [decide_eq_false hkeys] at hfollows
    rw [decide_eq_false hkeys', executePlan_swap htype hside haccepted haccepted' hleft hright hlaw
      hsym hd hd'] at hfollows'
    -- Two joins that follow one plan with the same free memory end alike.
    have hends := hfollows'.trans ((congrArg _ hfree).trans hfollows.symm)
    cases hr : (j.execute keying left right d : EStateM.Result JoinError Device (JoinResult S)) with
    | error e d₁ =>
      obtain ⟨e', d₂, he', hkind⟩ := DeviceM.ending_error
        (hends.trans (DeviceM.ending_of_error hr))
      exact Or.inl ⟨e, e', d₁, d₂, rfl, he', hkind⟩
    | ok r d₁ =>
      obtain ⟨r', d₂, hr', hsame⟩ := DeviceM.ending_ok (hends.trans (DeviceM.ending_of_ok hr))
      refine Or.inr ⟨r, r', d₁, d₂, rfl, hr', ?_, ?_⟩
      · have hrows := rowPairs_of_regular hleft hright hlaw hd hr
        have hrows' := rowPairs_of_regular hright hleft hlaw hd' hr'
        exact ((hrows'.map _).trans (resultRows_swap htype
          (KeyColumns.validate_ok haccepted.valid) hsym)).trans hrows.symm
      · have hall : r'.statistics = { r'.unflipped with flipped := r'.statistics.flipped } := rfl
        rw [hall, hsame]
        rfl

/-! Sides of the same length, so that each of the two joins builds over another one. -/

def swapLeft : KeyColumns UInt32 := ⟨#[7, 1, 7], [⟨.u64, #[5, 5, 6]⟩]⟩

def swapRight : KeyColumns UInt32 := ⟨#[2, 7, 7], [⟨.u64, #[5, 5, 5]⟩]⟩

theorem execute_swap_sample :
    ∃ (r r' : JoinResult UInt64) (d₁ d₂ : Device),
      (sampleJoin .inner).execute .default swapLeft swapRight (.forwards 1000) = .ok r d₁ ∧
      (sampleJoin .inner).execute .default swapRight swapLeft (.backwards 1000) = .ok r' d₂ ∧
      r.len = 2 ∧ (r'.rowPairs.map (NestedLoop.oriented true)).Perm r.rowPairs ∧
      r'.statistics = { r.statistics with flipped := r'.statistics.flipped } := by
  obtain ⟨r, d₁, hr, hlen⟩ := DeviceM.exists_of_returns
    (fun r : JoinResult UInt64 => decide (r.len = 2))
    ((sampleJoin .inner).execute .default swapLeft swapRight (.forwards 1000)) (by decide +kernel)
  rcases execute_swap (S := UInt64) (j := sampleJoin .inner) (by decide) rfl rfl
    (⟨by decide, by decide +kernel⟩ : swapLeft.Regular)
    (⟨by decide, by decide +kernel⟩ : swapRight.Regular) Keying.default_lawful Keying.sameKey_comm
    (Device.forwards_oneWorker 1000).runsAll (Device.backwards_runsAll 1000) rfl with
    ⟨e, -, d, -, he, -⟩ | ⟨r₁, r', d, d₂, hr₁, hr', hperm, hstatistics⟩
  · cases hr.symm.trans he
  · cases hr.symm.trans hr₁
    exact ⟨r, r', d₁, d₂, hr, hr', of_decide_eq_true hlen, hperm, hstatistics⟩

end HashJoin
end GridOps
