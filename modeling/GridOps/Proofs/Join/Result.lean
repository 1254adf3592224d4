import GridOps.Proofs.Join.Prepare

/-!
The result of a join.

A join that succeeds returns the nested-loop join (`execute_isJoin`): every pair of rows that agree
and, in a left join, every left row without a partner, each once.  In which order they come is up
to the order in which threads run.  On one worker it is the order of the nested loops over the
probe side and the build side (`execute_rows_one_worker`), whatever the table, the estimate and the
retries were.
-/

namespace GridOps

theorem JoinResult.pairs_of_halves {S : Type} {r : JoinResult S} {pairs : List (Pair S)}
    {flip : Bool} (hlen : r.len = pairs.length)
    (hrows : r.rows = (Pair.halves pairs.toArray flip).toArray) :
    r.pairs = pairs.map fun p => ((p.oriented flip).first, (p.oriented flip).second) := by
  have hfirst : (pairs.map fun p => (p.oriented flip).first).length = r.len := by
    rw [List.length_map, hlen]
  rw [JoinResult.pairs, hrows, Pair.halves, List.toList_toArray, List.take_left' hfirst,
    List.drop_left' hfirst, List.zip_map']

variable {K S : Type} [Word S]

/-- The result rows, their words read as row numbers. -/
def JoinResult.rowPairs (r : JoinResult S) : List (Nat × Option Nat) :=
  r.pairs.map fun row => (Word.toNat row.1, JoinResult.row? row.2)

namespace HashJoin

variable {j : HashJoin} {left right : KeyColumns K}

/-- The rows of a join: for each probe row in order its matching build rows in order, or none in a
left join; with the left row first. -/
def resultRows (j : HashJoin) (equal : K → K → Bool) (left right : KeyColumns K) :
    List (Nat × Option Nat) :=
  (NestedLoop.join j.joinType equal (j.probed left right) (j.built left right)
    (j.probed left right).len).map (NestedLoop.oriented (j.flips left right))

theorem inner_of_flips (h : j.flips left right = true) : j.joinType = .inner := by
  unfold flips at h
  simp only [Bool.and_eq_true, decide_eq_true_eq] at h
  exact h.1.1

/-- With a symmetric equality it does not matter which side is probed, up to the order. -/
theorem resultRows_perm {equal : K → K → Bool} (hc : left.Compatible right)
    (hsym : ∀ a b, equal a b = equal b a) :
    (j.resultRows equal left right).Perm
      (NestedLoop.join j.joinType equal left right left.len) := by
  unfold resultRows probed built
  cases hflip : j.flips left right with
  | false =>
    rw [if_neg Bool.false_ne_true, if_neg Bool.false_ne_true, NestedLoop.map_oriented_false]
  | true =>
    rw [if_pos rfl, if_pos rfl, inner_of_flips hflip]
    exact NestedLoop.map_oriented_join_perm hc hsym

theorem resultRows_of_trivial {equal : K → K → Bool} (h : j.TriviallyEmpty left right) :
    j.resultRows equal left right = [] := by
  unfold resultRows
  rcases h with hprobe | ⟨hbuild, hinner⟩
  · rw [hprobe]
    rfl
  · rw [hinner, List.map_eq_nil_iff, List.eq_nil_iff_forall_not_mem]
    intro row hrow
    rcases NestedLoop.mem_resultRows.mp (NestedLoop.mem_join.mp hrow).2 with
      ⟨k, -, hmatch⟩ | ⟨-, hleft, -⟩
    · have hlt := (NestedLoop.lt_of_rowsMatch hmatch).2
      omega
    · cases hleft

/-- The rows are a matter of the kind of join only. -/
theorem resultRows_congr {j' : HashJoin} (equal : K → K → Bool) (left right : KeyColumns K)
    (htype : j'.joinType = j.joinType) (hside : j'.buildSide = j.buildSide) :
    j'.resultRows equal left right = j.resultRows equal left right := by
  unfold resultRows probed built flips
  rw [htype, hside]

/-! ## Reading a result -/

/-- A result of split rows reads as these rows. -/
theorem rowPairs_of_halves {r : JoinResult S} {emitted : List (Nat × S)} {flip : Bool}
    (hlen : r.len = emitted.length)
    (hrows : r.rows = (Pair.halves (emitted.map Emit.pairOf).toArray flip).toArray)
    (hfst : ∀ row ∈ emitted, row.1 < Word.toNat (Word.top S))
    (hsnd : flip = true → ∀ row ∈ emitted, Word.toNat row.2 < Word.toNat (Word.top S)) :
    r.rowPairs = (emitted.map Prober.rowOf).map (NestedLoop.oriented flip) := by
  rw [JoinResult.rowPairs, JoinResult.pairs_of_halves (by rw [hlen, List.length_map]) hrows,
    List.map_map, List.map_map, List.map_map]
  refine List.map_congr_left fun row hrow => ?_
  have hread := Prober.toNat_ofNat_of_lt_top (hfst row hrow)
  cases flip with
  | false => exact congrArg (fun i => (i, JoinResult.row? row.2)) hread
  | true =>
    have hsome : JoinResult.row? row.2 = some (Word.toNat row.2) :=
      if_neg (Nat.ne_of_lt (hsnd rfl row hrow))
    have hfound : JoinResult.row? (Word.ofNat row.1 : S) = some row.1 :=
      Prober.row?_ofNat (hfst row hrow)
    show (Word.toNat row.2, JoinResult.row? (Word.ofNat row.1 : S)) =
      NestedLoop.oriented true (row.1, JoinResult.row? row.2)
    rw [hsome, hfound]
    rfl

theorem rowPairs_emptyResult (statistics : JoinStatistics) :
    (emptyResult statistics : JoinResult S).rowPairs = [] := rfl

/-! ## What a join returns -/

variable {flip : Bool} {table : Multimap K S} {probe build : KeyColumns K}

/-- A probe that succeeds ends with nothing, if nothing is expected, or with what growing found. -/
theorem probeTable_ok {r : JoinResult S} {d d' : Device}
    (h : j.probeTable flip table probe build d = .ok r d') :
    ∃ e d₁, (Estimator.mk j.prober j.threshold).estimate table probe build d = .ok e d₁ ∧
      ((e.rows = 0 ∧ r = emptyResult ⟨.empty, flip, table.capacity, some e, 0, 0⟩) ∨
        (e.rows ≠ 0 ∧ ∃ f d₂ d₃, d₁.Became d₂ (1 * DeviceM.counterBytes) ∧
          j.grow flip table probe build j.maxRetries 0 (j.clamp e.rows) d₂ = .ok f d₃ ∧
          r = ⟨f.rows, f.len,
            ⟨.done, flip, table.capacity, some e, f.retries, f.slots⟩⟩)) := by
  obtain ⟨e, d₁, hestimate, h⟩ := DeviceM.bind_ok h
  refine ⟨e, d₁, hestimate, ?_⟩
  dsimp only at h
  split at h
  · rename_i hzero
    cases h
    exact Or.inl ⟨hzero, rfl⟩
  · rename_i hsome
    obtain ⟨_, d₂, htake, h⟩ := DeviceM.bind_ok h
    obtain ⟨d₃, h, -⟩ := DeviceM.withBytes_ok h
    obtain ⟨f, d₄, hgrow, h⟩ := DeviceM.bind_ok h
    cases h
    exact Or.inr ⟨hsome, f, d₂, d₃, (DeviceM.reserveItems_balanced _ _).ok
      (DeviceM.mapError_ok htake), hgrow, rfl⟩

/-- A probe that succeeds returns what the probe rows emit, in an order of the probe rows. -/
theorem probeTable_rows (hp : table.Probeable probe build)
    (hflip : flip = true → j.joinType = .inner)
    (hrows : (j.prober.emissions table probe build (List.range probe.len)).length < UInt64.size)
    {r : JoinResult S} {d d' : Device} (hd : d.RunsAll)
    (h : j.probeTable flip table probe build d = .ok r d') :
    ∃ taken, d.Orders probe.len taken ∧
      r.rowPairs = ((j.prober.emissions table probe build taken).map Prober.rowOf).map
        (NestedLoop.oriented flip) ∧
      (r.statistics.finalState = .empty ↔ r.rowPairs = []) := by
  obtain ⟨e, d₁, hestimate, hcases⟩ := probeTable_ok h
  have hzero := Estimator.estimate_ok hp hrows j.threshold_ne hd hestimate
  have hb₁ := (Estimator.estimate_balanced _ table probe build).ok hestimate
  rcases hcases with ⟨hnone, rfl⟩ | ⟨hsome, f, d₂, d₃, hb₂, hgrow, rfl⟩
  · refine ⟨List.range probe.len, ⟨.refl _, fun _ => rfl⟩, ?_, ?_⟩
    · rw [hzero.mp hnone]
      rfl
    · exact ⟨fun _ => rfl, fun _ => rfl⟩
  · obtain ⟨d₄, hb₃, hattempt⟩ := grow_ok hgrow
    have hb := (hb₁.trans hb₂).trans hb₃
    obtain ⟨taken, horder, hlen, hsplit⟩ := attempt_rows hp hrows (hd.became hb) hattempt
    have hread := rowPairs_of_halves
      (r := ⟨f.rows, f.len, ⟨.done, flip, table.capacity, some e, f.retries, f.slots⟩⟩) hlen hsplit
      (fun row hrow =>
        Nat.lt_trans (horder.lt (Prober.mem_emissions hp.rowsBelow hrow).1) hp.probeRows)
      (fun hf row hrow => by
        rcases (Prober.mem_emissions hp.rowsBelow hrow).2 with hlt | ⟨hleft, -⟩
        · exact Nat.lt_trans hlt hp.buildRows
        · cases (hflip hf).symm.trans hleft)
    refine ⟨taken, horder.of_became hb, hread, iff_of_false JoinState.noConfusion fun hnil => ?_⟩
    rw [hread, List.map_eq_nil_iff, List.map_eq_nil_iff] at hnil
    -- An estimate other than zero has seen a row.
    have hperm := j.prober.emissions_perm table probe build horder.perm
    rw [hnil] at hperm
    exact hsome (hzero.mpr hperm.nil_eq.symm)

variable [JoinKey K] {keying : Keying K}

theorem execute_accepted {r : JoinResult S} {d d' : Device}
    (h : j.execute keying left right d = .ok r d') : Accepted S left right := by
  rcases prepare_cases S j keying left right d with
    ⟨e, d₁, -, hfails⟩ | ⟨haccepted, -⟩ | ⟨capacity, table, d₁, hprepared⟩
  · cases (hfails _ _).symm.trans h
  · exact haccepted
  · exact hprepared.accepted

theorem Prepared.length_emissions {capacity : Nat} {d d' : Device}
    (h : Prepared j keying left right d capacity table d') (hd : d.RunsAll)
    (hlaw : keying.Lawful) :
    (j.prober.emissions table (j.probed left right) (j.built left right)
      (List.range (j.probed left right).len)).length =
      (j.resultRows keying.equal left right).length := by
  have hlen := (h.emissions_perm hd hlaw (.refl _)).length_eq
  rw [resultRows, List.length_map, ← hlen, List.length_map]

/-- A join that succeeds returns its rows, in their order if the device has one worker. -/
theorem execute_rows (hlaw : keying.Lawful)
    (hsize : (j.probed left right).len + UInt32.size ≤ UInt64.size)
    (hrows : (j.resultRows keying.equal left right).length < UInt64.size) {r : JoinResult S}
    {d d' : Device} (hd : d.RunsAll) (h : j.execute keying left right d = .ok r d') :
    r.rowPairs.Perm (j.resultRows keying.equal left right) ∧
      (d.OneWorker → r.rowPairs = j.resultRows keying.equal left right) ∧
      (r.statistics.finalState = .empty ↔ r.rowPairs = []) := by
  rcases prepare_cases S j keying left right d with
    ⟨e, d₁, -, hfails⟩ | ⟨haccepted, htrivial⟩ | ⟨capacity, table, d₁, hprepared⟩
  · cases (hfails _ _).symm.trans h
  · rw [execute_of_trivial haccepted htrivial] at h
    cases h
    rw [rowPairs_emptyResult, resultRows_of_trivial htrivial]
    exact ⟨.refl _, fun _ => rfl, fun _ => rfl, fun _ => rfl⟩
  · rw [execute_of_prepared hprepared] at h
    obtain ⟨d₂, hprobe, -⟩ := DeviceM.withBytes_ok h
    rw [← hprepared.length_emissions hd hlaw] at hrows
    obtain ⟨taken, htaken, hread, hstate⟩ := probeTable_rows (hprepared.probeable hd hsize)
      inner_of_flips hrows (hd.became hprepared.became) hprobe
    have htaken := htaken.of_became hprepared.became
    refine ⟨?_, fun hone => ?_, hstate⟩
    · rw [hread]
      exact (hprepared.emissions_perm hd hlaw htaken.perm).map _
    · rw [hread, htaken.ascending hone, hprepared.emissions_eq hone hlaw]
      rfl

/-- A join that succeeds returns the join of its sides, whatever the options, the keying and the
order of the threads. -/
theorem execute_isJoin (hlaw : keying.Lawful) (hsym : ∀ a b, keying.equal a b = keying.equal b a)
    (hleft : left.InMemory) (hright : right.InMemory)
    (hrows : (NestedLoop.join j.joinType keying.equal left right left.len).length < UInt64.size)
    {r : JoinResult S} {d d' : Device} (hd : d.RunsAll)
    (h : j.execute keying left right d = .ok r d') :
    NestedLoop.IsJoin j.joinType keying.equal left right r.rowPairs ∧
      r.rowPairs.Perm (NestedLoop.join j.joinType keying.equal left right left.len) ∧
      (r.statistics.finalState = .empty ↔ r.rowPairs = []) ∧
      (r.statistics.finalState = .done ↔ r.rowPairs ≠ []) := by
  have hc := KeyColumns.validate_ok (execute_accepted h).valid
  have hperm := resultRows_perm (j := j) hc hsym
  rw [← hperm.length_eq] at hrows
  obtain ⟨hresult, -, hstate⟩ :=
    execute_rows hlaw (probed_of hleft hright j).len_le hrows hd h
  have hjoin := hresult.trans hperm
  refine ⟨(NestedLoop.join_isJoin hc hsym).of_perm hjoin, hjoin, hstate, ?_⟩
  rw [Ne, ← hstate]
  cases r.statistics.finalState <;> simp

/-! A left join with a secondary key, on a device that runs threads backwards. -/

def sampleLeft : KeyColumns UInt32 := ⟨#[7, 1, 7, 2], [⟨.i32, #[0, 0, 1, 0]⟩]⟩

def sampleRight : KeyColumns UInt32 := ⟨#[7, 2, 7], [⟨.i32, #[0, 1, 0]⟩]⟩

/-- A join with few threads to a block. -/
def sampleJoin (joinType : JoinType) : HashJoin where
  toJoinOptions := { JoinOptions.default with joinType := joinType, block := 2 }
  occupancy_pos := by cases joinType <;> decide
  occupancy_le := by cases joinType <;> decide
  block_ne := by cases joinType <;> decide
  threshold_ne := by cases joinType <;> decide

theorem execute_isJoin_backwards :
    ∃ (r : JoinResult UInt32) (d : Device),
      (sampleJoin .left).execute .default sampleLeft sampleRight (.backwards 1000) = .ok r d ∧
      NestedLoop.IsJoin .left Keying.sameKey sampleLeft sampleRight r.rowPairs := by
  obtain ⟨r, d, h, -⟩ := DeviceM.exists_of_returns (fun _ => true)
    ((sampleJoin .left).execute (S := UInt32) .default sampleLeft sampleRight
      (.backwards 1000)) (by decide +kernel)
  exact ⟨r, d, h, (execute_isJoin Keying.default_lawful Keying.sameKey_comm (by decide) (by decide)
    (by decide +kernel) (Device.backwards_runsAll 1000) h).1⟩

/-- On one worker the rows come in the order of the nested loops.  So two joins of the same kind
return the same list, whatever their hash functions, options and devices. -/
theorem execute_rows_one_worker (hlaw : keying.Lawful) (hleft : left.InMemory)
    (hright : right.InMemory)
    (hrows : (j.resultRows keying.equal left right).length < UInt64.size) {r : JoinResult S}
    {d d' : Device} (hd : d.OneWorker) (h : j.execute keying left right d = .ok r d') :
    r.rowPairs = j.resultRows keying.equal left right ∧
      ∀ (j' : HashJoin) (keying' : Keying K) (r' : JoinResult S) (d₁ d₂ : Device),
        j'.joinType = j.joinType → j'.buildSide = j.buildSide → keying'.equal = keying.equal →
        keying'.Lawful → d₁.OneWorker → j'.execute keying' left right d₁ = .ok r' d₂ →
        r'.rowPairs = r.rowPairs := by
  have hread : ∀ {j : HashJoin} {keying : Keying K} {r : JoinResult S} {d d' : Device},
      keying.Lawful → (j.resultRows keying.equal left right).length < UInt64.size →
      d.OneWorker → j.execute keying left right d = .ok r d' →
      r.rowPairs = j.resultRows keying.equal left right :=
    fun {j} {_} {_} {_} {_} hlaw hrows hd h =>
      (execute_rows hlaw (probed_of hleft hright j).len_le hrows hd.runsAll h).2.1 hd
  have hthis := hread hlaw hrows hd h
  refine ⟨hthis, fun j' keying' r' d₁ d₂ htype hside hequal hlaw' hd₁ h' => ?_⟩
  have hsame : j'.resultRows keying'.equal left right = j.resultRows keying.equal left right := by
    rw [hequal, resultRows_congr keying.equal left right htype hside]
  rw [hthis, ← hsame]
  exact hread hlaw' (hsame ▸ hrows) hd₁ h'

/-- The right side is longer, so it is probed. -/
theorem execute_rows_flipped :
    ∃ (r : JoinResult UInt64) (d : Device),
      (sampleJoin .inner).execute .default sampleRight sampleLeft (.forwards 1000) = .ok r d ∧
      r.rowPairs = [(0, some 0), (2, some 0)] := by
  obtain ⟨r, d, h, -⟩ := DeviceM.exists_of_returns (fun _ => true)
    ((sampleJoin .inner).execute (S := UInt64) .default sampleRight sampleLeft
      (.forwards 1000)) (by decide +kernel)
  exact ⟨r, d, h, (execute_rows_one_worker Keying.default_lawful (by decide) (by decide)
    (by decide +kernel) (Device.forwards_oneWorker 1000) h).1.trans (by decide +kernel)⟩

end HashJoin
end GridOps
