import GridOps.Proofs.Join.Peak
import GridOps.Proofs.Join.Sampling

/-!
How far a join comes with so much memory.

Sides that are accepted need the bytes of the table and of two counters to be prepared
(`exists_prepared`).  A buffer with too few slots needs memory for its own pairs only, since nothing
of it is split (`attempt_overflows`).

A sample of the length of the build side that finds a row is the only one.  If it finds less than
its share of the result rows, the first buffer of the join is too small whatever the memory, and
every result takes a retry (`Underestimates`).
-/

namespace GridOps
namespace HashJoin

variable {K S : Type} [Word S] {j : HashJoin} {d d' : Device} {table : Multimap K S} {flip : Bool}
  {probe build : KeyColumns K}

/-! ## The first buffer -/

/-- A buffer that is too small is filled, and nothing is split. -/
theorem attempt_overflows (flip : Bool) (hp : table.Probeable probe build)
    (hlen : probe.len < UInt32.size) (hrows : j.rowsFound table probe build < UInt64.size)
    {slots : Nat} (hsmall : slots < j.rowsFound table probe build)
    (hhost : slots * Pair.bytes S ≤ maxHostBytes) (hd : d.RunsAll)
    (hfree : slots * Pair.bytes S ≤ d.available) :
    ∃ d', j.attempt flip table probe build slots d =
      .ok (j.rowsFound table probe build, none) d' := by
  have hgrid : probe.len ≤ (UInt32.size - 1) * j.block.toNat :=
    Nat.le_trans (Nat.le_sub_one_of_lt hlen)
      (Nat.le_mul_of_pos_right _ (Launch.toNat_pos j.block_ne))
  have hfinish : (j.finishPlan (j.load table probe build) slots).Needs 0
      (j.rowsFound table probe build, false) := by
    unfold finishPlan
    rw [rows_load]
    exact .of_neg (Nat.not_le_of_lt hsmall) (.pure _)
  have hplan : (j.attemptPlan (j.load table probe build) slots).Needs
      (slots * Pair.bytes S + max 0 0) (j.rowsFound table probe build, false) :=
    (Plan.allocate_needs hhost).hold ((Plan.launch_needs hgrid).bind hfinish)
  have hfollows : DeviceM.Follows JoinError.kind outline (j.attempt flip table probe build slots)
      (j.attemptPlan (j.load table probe build) slots) d := attempt_follows hp hrows slots hd
  obtain ⟨⟨found, rows?⟩, d', hattempt, hview⟩ :=
    DeviceM.ending_ok (hfollows.trans (hplan.ok hfree))
  obtain ⟨rfl, hnone⟩ := Prod.mk.inj hview
  obtain rfl : rows? = none := Option.isSome_eq_false_iff.mp hnone |> Option.isNone_iff_eq_none.mp
  exact ⟨d', hattempt⟩

/-- A result that needed no retry is in the first buffer. -/
theorem slots_of_grow {left retries slots : Nat} {f : Found S}
    (h : j.grow flip table probe build left retries slots d = .ok f d') :
    retries ≤ f.retries ∧ (f.retries = retries → f.slots = slots) := by
  induction left using Nat.strongRecOn generalizing retries slots d with
  | ind left ih =>
    rcases j.grow_cases flip table probe build left retries slots d with
      ⟨e, d₁, -, hgrow⟩ | ⟨found, rows, d₁, -, hgrow⟩ | ⟨left, d₁, rfl, -, hgrow⟩
    · rw [hgrow] at h
      cases h
    · rw [hgrow] at h
      cases h
      exact ⟨Nat.le_refl _, fun _ => rfl⟩
    · rw [hgrow] at h
      have hle := (ih left (Nat.lt_succ_self left) h).1
      exact ⟨by omega, fun heq => absurd heq (by omega)⟩

/-- More rows than the first buffer has slots take a retry. -/
theorem retries_pos_of_grow {left slots : Nat} {f : Found S}
    (h : j.grow flip table probe build left 0 slots d = .ok f d') (hsmall : slots < f.len) :
    0 < f.retries := by
  obtain ⟨d₁, -, hattempt⟩ := grow_ok h
  obtain ⟨output, d₂, d₃, -, -, -, -, hcases⟩ := attempt_ok hattempt
  have hfits : f.len ≤ f.slots := by
    rcases hcases with ⟨hfits, -⟩ | ⟨-, hnone⟩
    · exact hfits
    · cases hnone
  by_contra hnone
  have hslots := (slots_of_grow h).2 (by omega)
  omega

/-! ## Joins that are underestimated -/

variable {keying : Keying K} {left right : KeyColumns K}

/-- The estimate from a sample of as many probe rows as there are build rows, which have `n` result
rows. -/
def firstEstimate (probeLen buildLen n : Nat) : Estimate :=
  ⟨n * (probeLen / buildLen + 1), ⟨buildLen, probeLen / buildLen + 1⟩, 1⟩

/-- A join whose first sample has `n` result rows, which is less than its share of `rows`. -/
structure Underestimates (S : Type) [Word S] (j : HashJoin) (keying : Keying K)
    (left right : KeyColumns K) (n rows : Nat) : Prop where
  width : Word.bytes S = 4 ∨ Word.bytes S = 8
  leftRows : left.len < UInt32.size - 1
  rightRows : right.len < UInt32.size - 1
  matched : ¬left.Mismatched right
  lawful : keying.Lawful
  unlimited : j.maxRows? = none
  buildRows : 0 < (j.built left right).len
  long : j.threshold * (j.built left right).len < (j.probed left right).len
  sampled : (NestedLoop.join j.joinType keying.equal (j.probed left right) (j.built left right)
    (j.built left right).len).length = n
  some : 0 < n
  all : (j.resultRows keying.equal left right).length = rows
  few : n * ((j.probed left right).len / (j.built left right).len + 1) < rows
  counted : rows < UInt64.size

namespace Underestimates

variable {n rows : Nat} (h : Underestimates S j keying left right n rows)
include h

theorem short : (j.built left right).len ≤ (j.probed left right).len :=
  Nat.le_trans (Nat.le_mul_of_pos_left _ (Nat.pos_of_ne_zero j.threshold_ne)) (Nat.le_of_lt h.long)

theorem not_trivial : ¬j.TriviallyEmpty left right := by
  have hbuild := h.buildRows
  have hshort := h.short
  rintro (hprobe | ⟨hnone, -⟩) <;> omega

theorem wide : 4 ≤ Word.bytes S := by
  have hwidth := h.width
  omega

theorem probed_lt : (j.probed left right).len < UInt32.size - 1 :=
  probed_of (P := (·.len < UInt32.size - 1)) h.leftRows h.rightRows j

end Underestimates

variable [JoinKey K] {capacity : Nat}

/-! ## The table -/

/-- With the memory of its table and two counters, a join without reserved keys is prepared. -/
theorem exists_prepared (hwidth : Word.bytes S = 4 ∨ Word.bytes S = 8)
    (hleft : left.len < UInt32.size - 1) (hright : right.len < UInt32.size - 1)
    (hmatch : ¬left.Mismatched right) (hrows : ¬j.TriviallyEmpty left right)
    (hkeys : JoinKey.reserved K ∉ (j.built left right).keys) (hd : d.RunsAll)
    (hfree : j.tableSlots (j.built left right).len * Multimap.slotBytes K S + 16 ≤ d.available) :
    ∃ (table : Multimap K S) (d' : Device), Prepared j keying left right d
      (j.tableSlots (j.built left right).len) table d' := by
  have hword : 4 ≤ Word.bytes S := by omega
  have haccepted := accepted_of_match hword hleft hright hmatch
  have hbuilt := built_of (P := (·.len < UInt32.size - 1)) hleft hright j
  have hslots : Multimap.capacityFor (j.built left right).len j.occupancy =
      .ok (j.tableSlots (j.built left right).len) := by
    have hmax : Device.maxBytes = 18446744073709551615 := rfl
    have hsize : UInt32.size = 4294967296 := rfl
    rw [capacityFor_eq, if_neg (by omega)]
  have hpos := j.tableSlots_pos (j.built left right).len
  obtain ⟨_, d₁, hallocate, -⟩ := DeviceM.ending_ok
    ((Multimap.allocate_follows (S := S) hpos keying d).trans
      ((Plan.allocate_needs (tableBytes_le hwidth (by omega))).ok (by omega)))
  obtain ⟨-, rfl⟩ := Multimap.allocate_ok hallocate
  have hb := (Multimap.allocate_balanced _ _).ok hallocate
  have hroom : (j.built left right).keys.size ≤
      (Multimap.free (j.tableSlots (j.built left right).len) keying : Multimap K S).capacity :=
    Nat.le_trans (j.le_tableSlots _) (Nat.le_of_eq Array.size_replicate.symm)
  have hgrid : (j.built left right).keys.size ≤ (UInt32.size - 1) * j.block.toNat :=
    Nat.le_trans (Nat.le_of_lt hbuilt) (Nat.le_mul_of_pos_right _ (Launch.toNat_pos j.block_ne))
  have hplan : (buildPlan j.block (j.built left right).keys.size false).ends d₁.available =
      .ok () := by
    unfold buildPlan
    split
    · rfl
    · rw [Plan.bind_of_ok ((fillPlan_needs hgrid).ok (by rw [hb.available]; omega))]
      rfl
  have hbuild := Multimap.buildOrFail_follows j.block_ne (Multimap.holds_free hpos keying)
    (haccepted.built_lt j) hroom (add_size_le hbuilt) (hd.became hb)
  rw [decide_eq_false hkeys] at hbuild
  obtain ⟨table, d', hbuild, -⟩ := DeviceM.ending_ok (hbuild.trans hplan)
  exact ⟨table, d', haccepted, hrows, hslots, d₁, hallocate, hbuild⟩

/-! ## The estimate -/

theorem Prepared.estimable (h : Prepared j keying left right d capacity table d') (hd : d.RunsAll)
    (hlaw : keying.Lawful) (hwidth : 4 ≤ Word.bytes S) (hleft : left.len < UInt32.size - 1)
    (hright : right.len < UInt32.size - 1) :
    Estimator.Estimable table (j.probed left right) (j.built left right) := by
  obtain ⟨rows, horder, hstores, rfl, -⟩ := h.stores hd
  exact {
    compatible := h.accepted.compatible j
    lawful := hlaw
    complete := ⟨rows, hstores, horder.perm⟩
    width := hwidth
    probeRows := probed_of (P := (·.len < UInt32.size - 1)) hleft hright j
    buildRows := built_of (P := (·.len < UInt32.size - 1)) hleft hright j }

namespace Underestimates

variable {n rows : Nat} (h : Underestimates S j keying left right n rows)
include h

theorem probeable (hprepared : Prepared j keying left right d capacity table d') (hd : d.RunsAll) :
    table.Probeable (j.probed left right) (j.built left right) :=
  hprepared.probeable hd (add_size_le h.probed_lt)

theorem rowsFound (hprepared : Prepared j keying left right d capacity table d') (hd : d.RunsAll) :
    j.rowsFound table (j.probed left right) (j.built left right) = rows :=
  (hprepared.length_emissions hd h.lawful).trans h.all

/-- The first sample finds a row, so the estimate takes one round. -/
theorem estimate_eq (hprepared : Prepared j keying left right d capacity table d') (hd : d.RunsAll)
    {d₁ : Device} (hd₁ : d₁.RunsAll) (hfree : 8 ≤ d₁.available) :
    ∃ d₂, (Estimator.mk j.prober j.threshold).estimate table (j.probed left right)
        (j.built left right) d₁ =
      .ok (firstEstimate (j.probed left right).len (j.built left right).len n) d₂ := by
  have hestimable := hprepared.estimable hd h.lawful h.wide h.leftRows h.rightRows
  obtain ⟨-, -, -, hkeying, -⟩ := hprepared.stores hd
  have hsample : Sample.doubled (j.probed left right).len (j.built left right).len 0 =
      ⟨(j.built left right).len, (j.probed left right).len / (j.built left right).len + 1⟩ := by
    unfold Sample.doubled
    rw [Nat.pow_zero, Nat.mul_one, Nat.div_one, Nat.min_eq_right h.short,
      Nat.max_eq_right (Nat.le_add_left 1 _)]
  have hcount : (Estimator.mk j.prober j.threshold).found table (j.probed left right)
      (j.built left right) (j.built left right).len = n := by
    rw [← h.sampled, ← hkeying]
    rfl
  have hbytes : ¬Device.maxBytes <
      n * ((j.probed left right).len / (j.built left right).len + 1) := by
    have hfew := h.few
    have hcounted := h.counted
    unfold Device.maxBytes
    omega
  obtain ⟨k, d₂, hk, hestimate⟩ := @Estimator.estimate_sampled K S _ _ ⟨j.prober, j.threshold⟩
    table _ _ d₁ hestimable j.block_ne j.threshold_ne hd₁ hfree h.buildRows h.long
  have hzero : 0 ∈ Estimator.ends ((Estimator.mk j.prober j.threshold).found table
      (j.probed left right) (j.built left right)) (j.probed left right).len
      (j.built left right).len := by
    refine Or.inl ?_
    rw [Nat.pow_zero, Nat.mul_one, Nat.min_eq_right h.short, hcount]
    exact h.some
  obtain rfl : k = 0 := Nat.le_zero.mp (hk.2 hzero)
  rw [hestimate, hsample, Estimator.answer]
  dsimp only
  rw [hcount, if_neg hbytes]
  exact ⟨d₂, rfl⟩

/-- With the memory of its table and two counters, the join reaches its probe phase. -/
theorem estimated_eq (hkeys : JoinKey.reserved K ∉ (j.built left right).keys) (hd : d.RunsAll)
    (hfree : j.tableSlots (j.built left right).len * Multimap.slotBytes K S + 16 ≤ d.available) :
    ∃ (table : Multimap K S) (d₁ d₂ : Device),
      Prepared j keying left right d (j.tableSlots (j.built left right).len) table d₁ ∧
      j.estimated keying left right d = .ok (Option.some
        (table, firstEstimate (j.probed left right).len (j.built left right).len n)) d₂ := by
  obtain ⟨table, d₁, hprepared⟩ : ∃ (table : Multimap K S) (d₁ : Device), Prepared j keying left
      right d (j.tableSlots (j.built left right).len) table d₁ :=
    exists_prepared h.width h.leftRows h.rightRows h.matched h.not_trivial hkeys hd hfree
  have hb := hprepared.became
  obtain ⟨d₂, hestimate⟩ := h.estimate_eq hprepared hd (hd.became hb)
    (by rw [hb.available]; omega)
  have hestimated : j.estimated keying left right d = .ok (Option.some
      (table, firstEstimate (j.probed left right).len (j.built left right).len n))
      (d₂.release (j.tableSlots (j.built left right).len * Multimap.slotBytes K S)) := by
    unfold estimated
    rw [prepare_of_prepared hprepared]
    exact DeviceM.withBytes_of_ok (DeviceM.bind_of_ok hestimate)
  exact ⟨table, d₁, _, hprepared, hestimated⟩

/-- The first buffer, of as many slots as rows are expected, is too small. -/
theorem attempt_eq (flip : Bool) (hprepared : Prepared j keying left right d capacity table d')
    (hd : d.RunsAll) {slots : Nat} (hslots : slots < rows)
    (hhost : slots * Pair.bytes S ≤ maxHostBytes) {d₁ : Device} (hd₁ : d₁.RunsAll)
    (hfree : slots * Pair.bytes S ≤ d₁.available) :
    ∃ d₂, j.attempt flip table (j.probed left right) (j.built left right) slots d₁ =
      .ok (rows, none) d₂ := by
  have hrows := h.rowsFound hprepared hd
  rw [← hrows]
  refine attempt_overflows flip (h.probeable hprepared hd) ?_ ?_ ?_ hhost hd₁ hfree
  · exact Nat.lt_of_lt_pred h.probed_lt
  · rw [hrows]
    exact h.counted
  · rwa [hrows]

/-- Whatever the memory, a result comes from the estimate of the first sample, after a retry. -/
theorem execute_ok {r : JoinResult S} (hd : d.RunsAll)
    (hexecute : j.execute keying left right d = .ok r d') :
    r.len = rows ∧ r.statistics.estimate? = Option.some
      (firstEstimate (j.probed left right).len (j.built left right).len n) ∧
      0 < r.statistics.retries := by
  rcases prepare_cases S j keying left right d with
    ⟨e, d₁, -, hfails⟩ | ⟨-, htrivial⟩ | ⟨capacity, table, d₁, hprepared⟩
  · cases (hfails _ _).symm.trans hexecute
  · exact absurd htrivial h.not_trivial
  rw [execute_of_prepared hprepared] at hexecute
  obtain ⟨d₂, hprobe, -⟩ := DeviceM.withBytes_ok hexecute
  obtain ⟨e, d₃, hestimate, hcases⟩ := probeTable_ok hprobe
  have hd₁ := hd.became hprepared.became
  obtain rfl : e = firstEstimate (j.probed left right).len (j.built left right).len n := by
    rcases Nat.lt_or_ge d₁.available 8 with hfull | hfree
    · have hprobed : 0 < (j.probed left right).len := Nat.lt_of_lt_of_le h.buildRows h.short
      rw [Estimator.estimate_outOfMemory hprobed hfull] at hestimate
      cases hestimate
    · obtain ⟨d₄, heq⟩ := h.estimate_eq hprepared hd hd₁ hfree
      rw [heq] at hestimate
      cases hestimate
      rfl
  rcases hcases with ⟨hzero, -⟩ | ⟨-, f, d₄, d₅, hb, hgrow, rfl⟩
  · exact absurd hzero (Nat.ne_of_gt (Nat.mul_pos h.some (Nat.succ_pos _)))
  have hb₃ := (Estimator.estimate_balanced _ table _ _).ok hestimate
  have hclamp : j.clamp (firstEstimate (j.probed left right).len (j.built left right).len n).rows =
      (firstEstimate (j.probed left right).len (j.built left right).len n).rows := by
    unfold clamp
    rw [h.unlimited]
  rw [hclamp] at hgrow
  obtain ⟨d₆, hb₆, hattempt⟩ := grow_ok hgrow
  have hrows : (j.prober.emissions table (j.probed left right) (j.built left right)
      (List.range (j.probed left right).len)).length = rows := h.rowsFound hprepared hd
  obtain ⟨taken, htaken, hlen, -⟩ := attempt_rows (h.probeable hprepared hd)
    (by rw [hrows]; exact h.counted) (hd₁.became ((hb₃.trans hb).trans hb₆)) hattempt
  have hfound : f.len = rows := by
    rw [hlen, j.prober.length_emissions table _ _ htaken, hrows]
  exact ⟨hfound, rfl, retries_pos_of_grow hgrow (by rw [hfound]; exact h.few)⟩

end Underestimates

end HashJoin
end GridOps
