import GridOps.Proofs.Join.Result

/-!
How the output buffer grows.

With enough memory, the growth loop doubles the estimate up to the limit until all rows fit
(`grow_outcome`): it ends with the first buffer that holds them, or fails because the limit or the
last retry leaves too small a buffer.  `execute_grows` says this of a whole join.
-/

namespace GridOps

variable {K S : Type} [Word S]

namespace HashJoin

/-- The slots of the buffer after `r` retries: the estimate doubled `r` times, up to the limit. -/
def slotsAfter (j : HashJoin) (estimate r : Nat) : Nat := j.clamp (estimate * 2 ^ r)

/-- The number of rows that probing `table` finds. -/
def rowsFound (j : HashJoin) (table : Multimap K S) (probe build : KeyColumns K) : Nat :=
  (j.prober.emissions table probe build (List.range probe.len)).length

variable {j : HashJoin} {flip : Bool} {table : Multimap K S} {probe build : KeyColumns K}

/-! ## Sizes of buffers -/

theorem clamp_le (j : HashJoin) {limit : Nat} (h : j.maxRows? = some limit) (rows : Nat) :
    j.clamp rows ≤ limit := by
  unfold clamp
  rw [h]
  exact Nat.min_le_right ..

theorem clamp_mono (j : HashJoin) {m n : Nat} (h : m ≤ n) : j.clamp m ≤ j.clamp n := by
  unfold clamp
  cases j.maxRows? with
  | none => exact h
  | some limit =>
    dsimp only
    omega

theorem slotsAfter_zero (j : HashJoin) (estimate : Nat) :
    j.slotsAfter estimate 0 = j.clamp estimate := by
  rw [slotsAfter, Nat.pow_zero, Nat.mul_one]

theorem slotsAfter_succ (j : HashJoin) (estimate r : Nat) :
    j.clamp (j.slotsAfter estimate r * 2) = j.slotsAfter estimate (r + 1) := by
  unfold slotsAfter clamp
  rw [Nat.pow_succ, ← Nat.mul_assoc]
  cases j.maxRows? with
  | none => rfl
  | some limit =>
    dsimp only
    omega

theorem slotsAfter_mono (j : HashJoin) (estimate : Nat) {q r : Nat} (h : q ≤ r) :
    j.slotsAfter estimate q ≤ j.slotsAfter estimate r :=
  j.clamp_mono (Nat.mul_le_mul_left estimate (Nat.pow_le_pow_right Nat.two_pos h))

/-- A buffer never has more slots than the limit on rows. -/
theorem slotsAfter_lt {rows estimate : Nat} (h : ¬j.Allows rows) (r : Nat) :
    j.slotsAfter estimate r < rows := by
  unfold Allows at h
  simp only [not_forall, Nat.not_le] at h
  obtain ⟨limit, hlimit, hover⟩ := h
  exact Nat.lt_of_le_of_lt (j.clamp_le hlimit _) hover

/-! ## One attempt -/

theorem rows_lt_of_grid {rows : Nat} (h : rows ≤ (UInt32.size - 1) * j.block.toNat) :
    rows < UInt64.size := by
  have hblock : (UInt32.size - 1) * j.block.toNat ≤ (UInt32.size - 1) * (UInt32.size - 1) :=
    Nat.mul_le_mul_left _ (Nat.le_sub_one_of_lt j.block.toNat_lt)
  have hmax : (UInt32.size - 1) * (UInt32.size - 1) < UInt64.size := by decide
  omega

/-- The device has room for a buffer of `slots` pairs and the host can hold it, and beside it there
is room on the device for `rows` result rows. -/
structure HasRoom (S : Type) [Word S] (d : Device) (slots rows : Nat) : Prop where
  host : slots * Pair.bytes S ≤ maxHostBytes
  device : d.used + slots * Pair.bytes S + 2 * rows * Word.bytes S ≤ d.capacity

instance (d : Device) (slots rows : Nat) : Decidable (HasRoom S d slots rows) :=
  decidable_of_iff (slots * Pair.bytes S ≤ maxHostBytes ∧
    d.used + slots * Pair.bytes S + 2 * rows * Word.bytes S ≤ d.capacity)
    ⟨fun h => ⟨h.1, h.2⟩, fun h => ⟨h.host, h.device⟩⟩

theorem HasRoom.of_became {d d' : Device} {bytes slots rows : Nat}
    (h : HasRoom S (d.take bytes) slots rows) (hb : d.Became d' bytes) : HasRoom S d' slots rows :=
  ⟨h.host, by rw [hb.used, hb.capacity]; exact h.device⟩

/-- A buffer of twice the size has a size that a word holds. -/
theorem HasRoom.doubles {d : Device} {slots rows : Nat} (h : HasRoom S d slots rows)
    (hword : 0 < Word.bytes S) : slots * 2 ≤ Device.maxBytes := by
  have hhost : maxHostBytes ≤ Device.maxBytes := by decide
  have hpair : slots * 2 ≤ slots * Pair.bytes S :=
    Nat.mul_le_mul_left slots (Nat.le_mul_of_pos_right 2 hword)
  exact Nat.le_trans hpair (Nat.le_trans h.host hhost)

/-- A buffer of `slots` pairs with enough memory beside it is split if it holds all its rows. -/
theorem finish_outcome (flip : Bool) {output : PairBuffer S} {slots rows : Nat} {d : Device}
    (hd : d.RunsAll) (hcount : output.cursor.toNat = rows) (hsize : output.pairs.size = slots)
    (hgrid : rows ≤ (UInt32.size - 1) * j.block.toNat)
    (hhost : slots * Pair.bytes S ≤ maxHostBytes)
    (hroom : d.used + 2 * rows * Word.bytes S ≤ d.capacity) :
    ∃ rows? d', j.finish flip slots output d = .ok (rows, rows?) d' ∧
      (rows?.isSome ↔ rows ≤ slots) := by
  unfold finish
  rw [hcount]
  by_cases hfits : rows ≤ slots
  · have hpairs : (output.pairs.take rows).size = rows := size_take (by rwa [hsize])
    have hhalf : 2 * rows * Word.bytes S ≤ slots * Pair.bytes S := by
      rw [Pair.bytes, ← Nat.mul_assoc, Nat.mul_comm slots 2]
      exact Nat.mul_le_mul_right _ (Nat.mul_le_mul_left 2 hfits)
    obtain ⟨d', hsplit⟩ := Pair.split_isOk flip hd j.block_ne (by rwa [hpairs])
      (by rw [hpairs]; exact Nat.le_trans hhalf hhost) (by rwa [hpairs])
    rw [if_pos hfits]
    exact ⟨some _, d', DeviceM.bind_of_ok (DeviceM.mapError_of_ok hsplit), iff_of_true rfl hfits⟩
  · rw [if_neg hfits]
    exact ⟨none, d, rfl, iff_of_false Bool.false_ne_true hfits⟩

/-- An attempt with enough memory counts all rows, and returns them if they fit. -/
theorem attempt_outcome (flip : Bool) (hp : table.Probeable probe build)
    (hlen : probe.len < UInt32.size)
    (hgrid : j.rowsFound table probe build ≤ (UInt32.size - 1) * j.block.toNat)
    {slots : Nat} {d : Device} (hd : d.RunsAll)
    (hroom : HasRoom S d slots (j.rowsFound table probe build)) :
    ∃ rows? d', j.attempt flip table probe build slots d =
        .ok (j.rowsFound table probe build, rows?) d' ∧
      (rows?.isSome ↔ j.rowsFound table probe build ≤ slots) := by
  have hbytes := DeviceM.allocate_isOk hroom.host (Nat.le_trans (Nat.le_add_right ..) hroom.device)
  have htaken := (DeviceM.allocate_balanced _ _).ok hbytes
  obtain ⟨output, d₂, houtput⟩ := Prober.probe_isOk (p := j.prober)
    (Emit.write_does (Nat.le_of_lt hp.probeRows)) hp j.block_ne hlen probe.len
    ⟨0, Pair.zeros S slots⟩ (hd.became htaken)
  have hb := htaken.trans ((j.prober.materialize_balanced table probe build probe.len _).ok houtput)
  have hcount : output.cursor.toNat = j.rowsFound table probe build := by
    obtain ⟨rows, horder, hcursor, -⟩ := Prober.materialize_ok hp (hd.became htaken) houtput
    rw [Nat.min_self] at horder
    rw [hcursor, j.prober.length_emissions table probe build horder]
    exact UInt64.toNat_ofNat_of_lt' (rows_lt_of_grid hgrid)
  have hsize : output.pairs.size = slots := by
    rw [Prober.size_materialize houtput, Pair.zeros, Array.size_replicate]
  obtain ⟨rows?, d₃, hfinish, hsome⟩ := finish_outcome flip (hd.became hb) hcount hsize hgrid
    hroom.host (by rw [hb.used, hb.capacity]; exact hroom.device)
  have hattempt : j.attempt flip table probe build slots d =
      DeviceM.withBytes (slots * Pair.bytes S) (j.finish flip slots output) d₂ :=
    (DeviceM.bind_of_ok (DeviceM.mapError_of_ok hbytes)).trans
      (DeviceM.withBytes_congr (DeviceM.bind_of_ok houtput))
  exact ⟨rows?, _, hattempt.trans (DeviceM.withBytes_of_ok hfinish), hsome⟩

/-! ## The loop -/

/-- With enough memory, growing ends with the first buffer of the doubling that holds all rows, or
fails since there are more rows than the limit or than the last buffer holds. -/
theorem grow_outcome (flip : Bool) (hp : table.Probeable probe build)
    (hlen : probe.len < UInt32.size)
    (hgrid : j.rowsFound table probe build ≤ (UInt32.size - 1) * j.block.toNat)
    {estimate left retries : Nat} {d : Device} (hd : d.RunsAll)
    (hroom : ∀ r ≤ retries + left,
      (∀ q < r, j.slotsAfter estimate q < j.rowsFound table probe build) →
      HasRoom S d (j.slotsAfter estimate r) (j.rowsFound table probe build))
    (hbefore : ∀ q < retries, j.slotsAfter estimate q < j.rowsFound table probe build) :
    (∃ f d', j.grow flip table probe build left retries (j.slotsAfter estimate retries) d =
        .ok f d' ∧
      f.len = j.rowsFound table probe build ∧ f.retries ≤ retries + left ∧
      f.slots = j.slotsAfter estimate f.retries ∧
      j.rowsFound table probe build ≤ j.slotsAfter estimate f.retries ∧
      ∀ q < f.retries, j.slotsAfter estimate q < j.rowsFound table probe build) ∨
    ∃ e d', j.grow flip table probe build left retries (j.slotsAfter estimate retries) d =
        .error e d' ∧ e.kind = .outputLimitExceeded ∧
      (¬j.Allows (j.rowsFound table probe build) ∨
        j.slotsAfter estimate (retries + left) < j.rowsFound table probe build) := by
  -- `hbefore` is the invariant of the loop: the buffers up to this one were too small.
  induction left using Nat.strongRecOn generalizing retries d with
  | ind left ih =>
    have hthis := hroom retries (Nat.le_add_right ..) hbefore
    obtain ⟨rows?, d₁, hattempt, hsome⟩ := attempt_outcome flip hp hlen hgrid hd hthis
    cases rows? with
    | some rows =>
      exact Or.inl ⟨_, d₁, grow_of_fits hattempt, rfl, Nat.le_add_right .., rfl, hsome.mp rfl,
        hbefore⟩
    | none =>
      have hsmall : j.slotsAfter estimate retries < j.rowsFound table probe build :=
        Nat.lt_of_not_le fun h => Bool.false_ne_true (hsome.mpr h)
      rcases grow_of_missing left retries hattempt with ⟨limit, hlimit, hover, hgrow⟩ | ⟨-, hgrow⟩
      · exact Or.inr ⟨_, d₁, hgrow, rfl,
          Or.inl fun hallows => Nat.not_lt_of_le (hallows limit hlimit) hover⟩
      · cases left with
        | zero => exact Or.inr ⟨_, d₁, hgrow, rfl, Or.inr hsmall⟩
        | succ left =>
          have hb : d.Became d₁ 0 := (j.attempt_balanced flip table probe build _).ok hattempt
          have hsum : retries + 1 + left = retries + (left + 1) := by omega
          dsimp only at hgrow
          rw [if_neg (Nat.not_lt_of_le (hthis.doubles hp.bytes_pos)), slotsAfter_succ] at hgrow
          rw [hgrow, ← hsum]
          refine ih left (Nat.lt_succ_self left) (hd.became hb) (fun r hr hq => ?_) fun q hq => ?_
          · exact (hroom r (hsum ▸ hr) hq).of_became hb
          · rcases Nat.lt_succ_iff_lt_or_eq.mp hq with hq | rfl
            · exact hbefore q hq
            · exact hsmall

/-! ## A whole join -/

/-- A probe with an estimate takes its counter and grows a buffer from the estimate on. -/
theorem probeTable_of_estimate (flip : Bool) {estimate : Estimate} {d d' : Device}
    (h : (Estimator.mk j.prober j.threshold).estimate table probe build d = .ok estimate d')
    (hpos : 0 < estimate.rows) (hroom : d'.used + DeviceM.counterBytes ≤ d'.capacity) :
    j.probeTable flip table probe build d =
      DeviceM.withBytes DeviceM.counterBytes (do
        let f ← j.grow flip table probe build j.maxRetries 0 (j.slotsAfter estimate.rows 0)
        return ⟨f.rows, f.len, ⟨.done, flip, table.capacity, some estimate, f.retries, f.slots⟩⟩)
        (d'.take DeviceM.counterBytes) := by
  have htake : DeviceM.reserveItems 1 DeviceM.counterBytes d' =
      .ok () (d'.take DeviceM.counterBytes) := DeviceM.reserveItems_isOk (by decide) hroom
  unfold probeTable
  rw [DeviceM.bind_of_ok h]
  dsimp only
  rw [if_neg (Nat.ne_of_gt hpos)]
  refine (DeviceM.bind_of_ok (DeviceM.mapError_of_ok htake)).trans ?_
  rw [slotsAfter_zero]

variable [JoinKey K] {keying : Keying K} {left right : KeyColumns K}

/-- The table and the estimate with which a join goes into its probe phase, if it does. -/
def estimated (j : HashJoin) (keying : Keying K) (left right : KeyColumns K) :
    DeviceM JoinError (Option (Multimap K S × Estimate)) :=
  j.prepare keying left right none fun table => do
    let estimate ← (Estimator.mk j.prober j.threshold).estimate table (j.probed left right)
      (j.built left right)
    return some (table, estimate)

theorem estimated_ok {estimate : Estimate} {d d' : Device}
    (h : j.estimated keying left right d = .ok (some (table, estimate)) d') :
    ∃ capacity d₁ d₂, Prepared j keying left right d capacity table d₁ ∧
      (Estimator.mk j.prober j.threshold).estimate table (j.probed left right)
        (j.built left right) d₁ = .ok estimate d₂ := by
  unfold estimated at h
  rcases prepare_cases S j keying left right d with
    ⟨e, d₁, -, hfails⟩ | ⟨haccepted, htrivial⟩ | ⟨capacity, table, d₁, hprepared⟩
  · rw [hfails] at h
    cases h
  · rw [prepare_of_trivial _ _ haccepted htrivial] at h
    cases h
  · rw [prepare_of_prepared hprepared] at h
    obtain ⟨d₂, h, -⟩ := DeviceM.withBytes_ok h
    obtain ⟨estimate, d₃, hestimate, h⟩ := DeviceM.bind_ok h
    cases h
    exact ⟨capacity, d₁, d₂, hprepared, hestimate⟩

/-- With enough memory, a join that expects rows returns all of them with the first buffer of the
doubling that holds them, or fails if none does. -/
theorem execute_grows {table : Multimap K S} {estimate : Estimate} {rows : Nat} {d d' : Device}
    (hd : d.RunsAll) (hleft : left.len < UInt32.size - 1) (hright : right.len < UInt32.size - 1)
    (hreach : j.estimated keying left right d = .ok (some (table, estimate)) d')
    (hpos : 0 < estimate.rows)
    (hrows : j.rowsFound table (j.probed left right) (j.built left right) = rows)
    (hgrid : rows ≤ (UInt32.size - 1) * j.block.toNat)
    (hroom : ∀ r ≤ j.maxRetries, (∀ q < r, j.slotsAfter estimate.rows q < rows) →
      HasRoom S (d.take (table.capacity * Multimap.slotBytes K S + DeviceM.counterBytes))
        (j.slotsAfter estimate.rows r) rows) :
    (keying.Lawful → rows = (j.resultRows keying.equal left right).length) ∧
    (¬j.Allows rows ∨ j.slotsAfter estimate.rows j.maxRetries < rows →
      ∃ e d₁, j.execute (S := S) keying left right d = .error e d₁ ∧
        e.kind = .outputLimitExceeded) ∧
    (j.Allows rows → rows ≤ j.slotsAfter estimate.rows j.maxRetries →
      ∃ (r : JoinResult S) (d₁ : Device), j.execute keying left right d = .ok r d₁ ∧
        r.len = rows ∧ r.rowPairs.length = rows ∧
        (keying.Lawful → r.rowPairs.Perm (j.resultRows keying.equal left right)) ∧
        rows ≤ j.slotsAfter estimate.rows r.statistics.retries ∧
        (∀ q < r.statistics.retries, j.slotsAfter estimate.rows q < rows) ∧
        r.statistics.outputCapacity = j.slotsAfter estimate.rows r.statistics.retries) := by
  obtain ⟨capacity, d₁, d₂, hprepared, hestimate⟩ := estimated_ok hreach
  obtain ⟨order, -, -, -, rfl⟩ := hprepared.stores hd
  subst hrows
  have hlen : (j.probed left right).len < UInt32.size - 1 :=
    probed_of (P := (·.len < UInt32.size - 1)) hleft hright j
  have hsize : (j.probed left right).len + UInt32.size ≤ UInt64.size := by
    have hsize32 : UInt32.size = 4294967296 := rfl
    have hsize64 : UInt64.size = 18446744073709551616 := rfl
    omega
  have hp := hprepared.probeable hd hsize
  have hb₂ : d.Became d₂ (table.capacity * Multimap.slotBytes K S) :=
    hprepared.became.trans ((Estimator.estimate_balanced _ table _ _).ok hestimate)
  have hcounter : d₂.used + DeviceM.counterBytes ≤ d₂.capacity := by
    have hdevice := (hroom 0 (Nat.zero_le _) fun q hq => absurd hq (Nat.not_lt_zero q)).device
    change d.used + (table.capacity * Multimap.slotBytes K S + DeviceM.counterBytes) + _ + _ ≤
      d.capacity at hdevice
    rw [hb₂.used, hb₂.capacity]
    omega
  have hb₃ : d.Became (d₂.take DeviceM.counterBytes)
      (table.capacity * Multimap.slotBytes K S + DeviceM.counterBytes) :=
    hb₂.trans ((DeviceM.reserveItems_balanced 1 DeviceM.counterBytes).ok
      (DeviceM.reserveItems_isOk (by decide) hcounter))
  have hprobe := probeTable_of_estimate (j.flips left right) hestimate hpos hcounter
  have hexecute := (execute_of_prepared hprepared).trans (DeviceM.withBytes_congr hprobe)
  have hrooms : ∀ r ≤ 0 + j.maxRetries,
      (∀ q < r, j.slotsAfter estimate.rows q < j.rowsFound table _ _) →
      HasRoom S (d₂.take DeviceM.counterBytes) (j.slotsAfter estimate.rows r)
        (j.rowsFound table (j.probed left right) (j.built left right)) := fun r hr hq =>
    (hroom r (by omega) hq).of_became hb₃
  have houtcome := grow_outcome (j.flips left right) hp (Nat.lt_of_lt_pred hlen) hgrid
    (hd.became hb₃) hrooms fun q hq => absurd hq (Nat.not_lt_zero q)
  rw [Nat.zero_add] at houtcome
  refine ⟨fun hlaw => hprepared.length_emissions hd hlaw, fun hover => ?_, fun hallows hfits => ?_⟩
  · rcases houtcome with ⟨f, d₃, hgrow, -, hretries, -, hholds, -⟩ | ⟨e, d₃, hgrow, hkind, -⟩
    · refine absurd hholds (Nat.not_le_of_lt ?_)
      rcases hover with hlimit | hlast
      · exact slotsAfter_lt hlimit _
      · exact Nat.lt_of_le_of_lt (j.slotsAfter_mono estimate.rows hretries) hlast
    · exact ⟨e, _, hexecute.trans (DeviceM.withBytes_of_error
        (DeviceM.withBytes_of_error (DeviceM.bind_of_error hgrow))), hkind⟩
  · obtain ⟨f, d₃, hgrow, hfound, -, hslots, hholds, hfirst⟩ :=
      houtcome.resolve_right fun ⟨_, _, _, _, hover⟩ =>
        hover.elim (· hallows) (Nat.not_lt_of_le hfits)
    have hprobed := hprobe.trans (DeviceM.withBytes_of_ok (DeviceM.bind_of_ok hgrow))
    have hdone := hexecute.trans (DeviceM.withBytes_of_ok
      (DeviceM.withBytes_of_ok (DeviceM.bind_of_ok hgrow)))
    obtain ⟨taken, htaken, hread, -⟩ := probeTable_rows hp inner_of_flips (rows_lt_of_grid hgrid)
      (hd.became hprepared.became) hprobed
    refine ⟨_, _, hdone, hfound, ?_, fun hlaw => ?_, hholds, hfirst, hslots⟩
    · rw [hread, List.length_map, List.length_map]
      exact j.prober.length_emissions table _ _ htaken
    · refine (execute_rows hlaw hsize ?_ hd hdone).1
      rw [← hprepared.length_emissions hd hlaw]
      exact rows_lt_of_grid hgrid

/-! A join whose second sample finds four rows, while there are six. -/

def skewedLeft : KeyColumns UInt32 := ⟨#[1, 1, 7, 7, 7], []⟩

def skewedRight : KeyColumns UInt32 := ⟨#[7, 7], []⟩

def sampledJoin : HashJoin where
  toJoinOptions := { JoinOptions.default with threshold := 1, maxRetries := 2 }
  occupancy_pos := by decide
  occupancy_le := by decide
  block_ne := by decide
  threshold_ne := by decide

theorem execute_grows_skewed :
    ∃ (r : JoinResult UInt32) (d : Device),
      sampledJoin.execute .default skewedLeft skewedRight (.forwards 1000) = .ok r d ∧
      r.len = 6 ∧ 6 ≤ sampledJoin.slotsAfter 4 r.statistics.retries ∧
      ∀ q < r.statistics.retries, sampledJoin.slotsAfter 4 q < 6 := by
  obtain ⟨reached, d', hreach, hfacts⟩ := DeviceM.exists_of_returns
    (fun reached => reached.any fun x => decide (x.2.rows = 4 ∧ x.1.capacity = 4 ∧
      sampledJoin.rowsFound x.1 skewedLeft skewedRight = 6))
    (sampledJoin.estimated (S := UInt32) .default skewedLeft skewedRight (.forwards 1000))
    (by decide +kernel)
  obtain _ | ⟨table, estimate⟩ := reached
  · cases hfacts
  · obtain ⟨hestimate, hcapacity, hfound⟩ := of_decide_eq_true hfacts
    have hgrows := execute_grows (Device.forwards_oneWorker 1000).runsAll (by decide) (by decide)
      hreach (by rw [hestimate]; decide) hfound (by decide)
      (by rw [hestimate, hcapacity]; decide)
    rw [hestimate] at hgrows
    obtain ⟨r, d, h, hlen, -, -, hholds, hfirst, -⟩ := hgrows.2.2
      (fun limit h => by cases h) (by decide)
    exact ⟨r, d, h, hlen, hholds, hfirst⟩

end HashJoin
end GridOps
