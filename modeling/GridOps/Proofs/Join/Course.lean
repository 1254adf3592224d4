import GridOps.Proofs.Device.Plan
import GridOps.Proofs.Join.Growth

/-!
The course of a join over numbers.

How a join ends depends on the number of rows of both sides, on how many result rows the first
probe rows have and on the free memory, and on nothing else.  Each step of the join has a plan over
these numbers, and follows it whatever the order of its threads is (`probeTable_follows`).
-/

namespace GridOps

/-- The statistics of a result, but for which side was probed. -/
def JoinResult.unflipped {S : Type} (r : JoinResult S) : JoinStatistics :=
  { r.statistics with flipped := false }

namespace HashJoin

/-- What the course of a probe depends on. -/
@[ext]
structure Load where
  probeRows : Nat
  buildRows : Nat
  /-- The number of result rows of the first so many probe rows. -/
  found : Nat → Nat
  /-- The bytes of a row number. -/
  rowBytes : Nat

/-- The number of result rows. -/
def Load.rows (w : Load) : Nat := w.found w.probeRows

/-! ## Plans -/

def countPlan (j : HashJoin) (w : Load) (len : Nat) : Plan Nat := do
  Plan.launch (min len w.probeRows) j.block
  return w.found len

def extrapolatePlan (j : HashJoin) (w : Load) :
    Sample → List Sample → (rounds : Nat) → Plan Estimate
  | s, rest, rounds => do
    let rows := (← j.countPlan w s.len) * s.ratio
    if Device.maxBytes < rows then Plan.fail .integerOverflow
    else if 0 < rows then return ⟨rows, s, rounds + 1⟩
    else match rest with
      | [] => return ⟨rows, s, rounds + 1⟩
      | next :: rest => extrapolatePlan j w next rest (rounds + 1)

def estimatePlan (j : HashJoin) (w : Load) : Plan Estimate :=
  if w.probeRows = 0 then pure Estimate.none
  else do
    let first := Sample.first w.probeRows w.buildRows j.threshold
    Plan.withCounter (j.extrapolatePlan w first (Sample.doublings w.probeRows w.probeRows first) 0)

def splitPlan (j : HashJoin) (rows rowBytes : Nat) : Plan Unit := do
  Plan.allocate (2 * rows) rowBytes
  Plan.hold (2 * rows * rowBytes) (Plan.launch rows j.block)

/-- The number of rows found, and whether they fit. -/
def finishPlan (j : HashJoin) (w : Load) (slots : Nat) : Plan (Nat × Bool) :=
  if w.rows ≤ slots then do
    j.splitPlan w.rows w.rowBytes
    return (w.rows, true)
  else pure (w.rows, false)

def attemptPlan (j : HashJoin) (w : Load) (slots : Nat) : Plan (Nat × Bool) := do
  Plan.allocate slots (2 * w.rowBytes)
  Plan.hold (slots * (2 * w.rowBytes)) do
    Plan.launch w.probeRows j.block
    j.finishPlan w slots

/-- The number of retries and the slots of the last buffer. -/
def growPlan (j : HashJoin) (w : Load) : (left retries slots : Nat) → Plan (Nat × Nat)
  | left, retries, slots => do
    match ← j.attemptPlan w slots with
    | (_, true) => return (retries, slots)
    | (found, false) =>
      Plan.ofExcept JoinError.kind (j.checkLimit found)
      match left with
      | 0 => Plan.fail .outputLimitExceeded
      | left + 1 =>
        if Device.maxBytes < slots * 2 then Plan.fail .integerOverflow
        else growPlan j w left (retries + 1) (j.clamp (slots * 2))

/-- The statistics of the result.  They do not tell which side was probed. -/
def probeTablePlan (j : HashJoin) (w : Load) (capacity : Nat) : Plan JoinStatistics := do
  let estimate ← j.estimatePlan w
  if estimate.rows = 0 then return ⟨.empty, false, capacity, some estimate, 0, 0⟩
  else
    Plan.withCounter do
      let grown ← j.growPlan w j.maxRetries 0 (j.clamp estimate.rows)
      return ⟨.done, false, capacity, some estimate, grown.1, grown.2⟩

def fillPlan (block : UInt32) (rows : Nat) : Plan Unit := do
  Plan.launch rows block
  Plan.withCounter (Plan.withCounter (pure ()))

def buildPlan (block : UInt32) (rows : Nat) (reserved : Bool) : Plan Unit :=
  if rows = 0 then pure ()
  else do
    fillPlan block rows
    if reserved then Plan.fail .invalidArgument

/-- The course of a join of sides that have been accepted. -/
def executePlan (j : HashJoin) (w : Load) (reserved : Bool) (slotBytes : Nat) :
    Plan JoinStatistics :=
  if w.probeRows = 0 ∨ (w.buildRows = 0 ∧ j.joinType = .inner) then
    pure ⟨.empty, false, 0, none, 0, 0⟩
  else do
    let capacity ← Plan.ofExcept JoinError.kind (Multimap.capacityFor w.buildRows j.occupancy)
    Plan.allocate capacity slotBytes
    Plan.hold (capacity * slotBytes) do
      buildPlan j.block w.buildRows reserved
      j.probeTablePlan w capacity

/-- The two counters of a build. -/
theorem fillPlan_needs {block : UInt32} {rows : Nat}
    (h : rows ≤ (UInt32.size - 1) * block.toNat) : (fillPlan block rows).Needs 16 () :=
  (Plan.launch_needs h).bind (Plan.withCounter_needs (Plan.withCounter_needs (.pure ())))

/-! ## Device operations within a join -/

theorem of_device {α β : Type} {view : α → β} {m : DeviceM DeviceError α} {plan : Plan β}
    {d : Device} (h : DeviceM.Follows DeviceError.kind view m plan d) :
    DeviceM.Follows JoinError.kind view (DeviceM.mapError .device m) plan d :=
  h.mapError fun _ => rfl

theorem counter_follows {α β : Type} {view : α → β} {body : DeviceM JoinError α} {plan : Plan β}
    {d : Device} (h : ∀ d', d.Became d' DeviceM.counterBytes →
      DeviceM.Follows JoinError.kind view body plan d') :
    DeviceM.Follows JoinError.kind view (do
      DeviceM.mapError .device (DeviceM.reserveItems 1 DeviceM.counterBytes)
      DeviceM.withBytes DeviceM.counterBytes body) plan.withCounter d := by
  have htaken : DeviceM.Balanced (DeviceM.mapError JoinError.device
      (DeviceM.reserveItems 1 DeviceM.counterBytes)) fun _ => DeviceM.counterBytes :=
    .mapError (DeviceM.reserveItems_balanced 1 DeviceM.counterBytes)
  exact (of_device (DeviceM.reserveItems_follows 1 DeviceM.counterBytes d)).take htaken
    fun _ d' _ hb => .withBytes _ (h d' hb)

variable {K S σ : Type} [Word S] {j : HashJoin} {flip : Bool} {table : Multimap K S}
  {probe build : KeyColumns K} {d : Device}

/-! ## Counting -/

/-- The load of probing a table. -/
def load (j : HashJoin) (table : Multimap K S) (probe build : KeyColumns K) : Load where
  probeRows := probe.len
  buildRows := build.len
  found := fun len =>
    (j.prober.emissions table probe build (List.range (min len probe.len))).length
  rowBytes := Word.bytes S

theorem rows_load (j : HashJoin) (table : Multimap K S) (probe build : KeyColumns K) :
    (j.load table probe build).rows = j.rowsFound table probe build := by
  unfold Load.rows load rowsFound
  dsimp only
  rw [Nat.min_self]

theorem found_load_le (j : HashJoin) (table : Multimap K S) (probe build : KeyColumns K)
    (len : Nat) : (j.load table probe build).found len ≤ j.rowsFound table probe build :=
  j.prober.length_emissions_le table probe build (Nat.min_le_right ..)

theorem probe_follows {emit : Emit S σ} {step : Emit.Step S σ} (hemit : emit.Does step probe.len)
    (hp : table.Probeable probe build) (len : Nat) (s : σ) (hd : d.RunsAll) :
    DeviceM.Follows JoinError.kind (fun _ => ()) (j.prober.probe table probe build len emit s)
      (.launch (min len probe.len) j.block) d := by
  have hsize := hp.size
  have hle : min len probe.len ≤ probe.len := Nat.min_le_right ..
  unfold Prober.probe
  dsimp only
  split
  · rename_i hzero
    rw [hzero, Plan.launch, if_neg (Nat.not_lt_zero _)]
    exact .pure _ s
  · refine of_device ((DeviceM.forLen_follows j.block_ne (by omega) d).andThen fun l d' hl => ?_)
    have hcovers := Launch.forLen_ofNat_covers (by omega) (DeviceM.ofExcept_ok hl)
    have hsame := (DeviceM.Balanced.ofExcept _).ok hl
    exact ⟨_, _, Prober.launch_of_does (hemit.mono hle) hp.compatible hp.rowsBelow hle hcovers s
      (hd.became hsame), rfl⟩

theorem count_follows (hp : table.Probeable probe build)
    (hrows : j.rowsFound table probe build < UInt64.size) (len : Nat) (hd : d.RunsAll) :
    DeviceM.Follows JoinError.kind UInt64.toNat (j.prober.count table probe build len)
      (j.countPlan (j.load table probe build) len) d := by
  refine DeviceM.Follows.answers (probe_follows (Emit.count_does _) hp len 0 hd) fun n d' hn => ?_
  rw [Prober.count_ok hp hd hn]
  exact UInt64.toNat_ofNat_of_lt' (Nat.lt_of_le_of_lt (j.found_load_le table probe build len) hrows)

theorem extrapolate_follows (hp : table.Probeable probe build)
    (hrows : j.rowsFound table probe build < UInt64.size) (s : Sample) (rest : List Sample)
    (rounds : Nat) (hd : d.RunsAll) :
    DeviceM.Follows JoinError.kind id
      (Estimator.extrapolate (j.prober.count table probe build) s rest rounds)
      (j.extrapolatePlan (j.load table probe build) s rest rounds) d := by
  induction rest generalizing s rounds d with
  | nil =>
    unfold Estimator.extrapolate extrapolatePlan
    refine (count_follows hp hrows s.len hd).bind
      (j.prober.count_balanced table probe build s.len) fun n d' _ _ => ?_
    dsimp only
    split
    · exact .fail _ _
    · split <;> exact .pure _ _
  | cons next rest ih =>
    unfold Estimator.extrapolate extrapolatePlan
    refine (count_follows hp hrows s.len hd).bind
      (j.prober.count_balanced table probe build s.len) fun n d' _ hb => ?_
    dsimp only
    split
    · exact .fail _ _
    · split
      · exact .pure _ _
      · exact ih next (rounds + 1) (hd.became hb)

theorem estimate_follows (hp : table.Probeable probe build)
    (hrows : j.rowsFound table probe build < UInt64.size) (hd : d.RunsAll) :
    DeviceM.Follows JoinError.kind id
      ((Estimator.mk j.prober j.threshold).estimate table probe build)
      (j.estimatePlan (j.load table probe build)) d := by
  unfold Estimator.estimate estimatePlan
  by_cases hzero : probe.len = 0
  · rw [if_pos hzero, if_pos (show (j.load table probe build).probeRows = 0 from hzero)]
    exact .pure _ _
  · rw [if_neg hzero, if_neg (show (j.load table probe build).probeRows ≠ 0 from hzero)]
    exact counter_follows fun d' hb => extrapolate_follows hp hrows _ _ 0 (hd.became hb)

/-! ## Attempts -/

theorem split_follows (pairs : Array (Pair S)) (flip : Bool)
    (hsize : pairs.size + UInt32.size ≤ UInt64.size) (hd : d.RunsAll) :
    DeviceM.Follows DeviceError.kind (fun _ => ()) (Pair.split pairs flip j.block)
      (j.splitPlan pairs.size (Word.bytes S)) d := by
  unfold Pair.split splitPlan
  refine (DeviceM.allocate_follows _ _ d).take (DeviceM.allocate_balanced _ _)
    fun _ d' _ hb => .keepingBytes _ ?_
  split
  · rename_i hempty
    have hzero : pairs.size = 0 := by rw [Array.isEmpty_iff.mp hempty, Array.size_empty]
    rw [hzero, Plan.launch, if_neg (Nat.not_lt_zero _)]
    exact .pure _ _
  · refine (DeviceM.forLen_follows j.block_ne hsize d').andThen fun l d'' hl => ?_
    have hcovers := Launch.forLen_ofNat_covers hsize (DeviceM.ofExcept_ok hl)
    have hsame := (DeviceM.Balanced.ofExcept _).ok hl
    exact ⟨_, _, Pair.launch_splitKernel flip hcovers (hd.became (hb.trans hsame))
      Array.size_replicate, rfl⟩

/-- The number of rows of an attempt's answer, and whether they are in it. -/
def outline (answer : Nat × Option (Array S)) : Nat × Bool := (answer.1, answer.2.isSome)

theorem finish_follows {output : PairBuffer S} {slots : Nat}
    (hcount : output.cursor.toNat = j.rowsFound table probe build)
    (hsize : output.pairs.size = slots) (hslots : slots + UInt32.size ≤ UInt64.size)
    (hd : d.RunsAll) :
    DeviceM.Follows JoinError.kind outline (j.finish flip slots output)
      (j.finishPlan (j.load table probe build) slots) d := by
  unfold finish finishPlan
  rw [hcount, rows_load]
  dsimp only
  split
  · rename_i hfits
    have hpairs : (output.pairs.take (j.rowsFound table probe build)).size =
        j.rowsFound table probe build := size_take (by rwa [hsize])
    have hsplit := split_follows (j := j) (output.pairs.take (j.rowsFound table probe build)) flip
      (by omega) hd
    rw [hpairs] at hsplit
    exact (of_device hsplit).map fun _ => rfl
  · exact .pure outline _

theorem attempt_follows (hp : table.Probeable probe build)
    (hrows : j.rowsFound table probe build < UInt64.size) (slots : Nat) (hd : d.RunsAll) :
    DeviceM.Follows JoinError.kind outline (j.attempt flip table probe build slots)
      (j.attemptPlan (j.load table probe build) slots) d := by
  unfold attempt attemptPlan
  refine (of_device (DeviceM.allocate_follows slots (Pair.bytes S) d)).take
    (.mapError (DeviceM.allocate_balanced slots (Pair.bytes S))) fun _ d' htake hb => ?_
  have hmaterialize := probe_follows (j := j)
    (Emit.write_does (Nat.le_of_lt hp.probeRows)) hp probe.len ⟨0, Pair.zeros S slots⟩
    (hd.became hb)
  rw [Nat.min_self] at hmaterialize
  refine .withBytes _ (hmaterialize.bind (j.prober.materialize_balanced ..)
    fun output d'' houtput hb' => finish_follows ?_ ?_ ?_ (hd.became (hb.trans hb')))
  · obtain ⟨rows, horder, hcursor, -⟩ := Prober.materialize_ok hp (hd.became hb) houtput
    rw [Nat.min_self] at horder
    rw [hcursor, j.prober.length_emissions table probe build horder]
    exact UInt64.toNat_ofNat_of_lt' hrows
  · rw [Prober.size_materialize houtput, Pair.zeros, Array.size_replicate]
  · -- A pair has bytes, so the host holds fewer pairs than a word counts.
    have hhost := DeviceM.allocate_le (DeviceM.mapError_ok htake)
    have hslots : slots * 1 ≤ slots * Pair.bytes S :=
      Nat.mul_le_mul_left slots (Nat.mul_pos Nat.two_pos hp.bytes_pos)
    have hmax : maxHostBytes + UInt32.size ≤ UInt64.size := by decide
    omega

theorem grow_follows (hp : table.Probeable probe build)
    (hrows : j.rowsFound table probe build < UInt64.size) (left retries slots : Nat)
    (hd : d.RunsAll) :
    DeviceM.Follows JoinError.kind (fun f => (f.retries, f.slots))
      (j.grow flip table probe build left retries slots)
      (j.growPlan (j.load table probe build) left retries slots) d := by
  induction left using Nat.strongRecOn generalizing retries slots d with
  | ind left ih =>
    unfold grow growPlan
    refine (attempt_follows hp hrows slots hd).bind_of fun answer d' hattempt => ?_
    have hb := (j.attempt_balanced flip table probe build slots).ok hattempt
    obtain ⟨found, _ | rows⟩ := answer
    · -- An answer without rows has left nothing on the device.
      have hsame : d'.available = d.available := hb.available
      rw [← hsame]
      refine (DeviceM.Follows.ofExcept _).bind (.ofExcept _) fun _ d'' _ hb' => ?_
      cases left with
      | zero => exact .fail _ _
      | succ left =>
        dsimp only
        split
        · exact .fail _ _
        · exact ih left (Nat.lt_succ_self left) _ _ (hd.became (hb.trans hb'))
    · rfl

/-- Probing a table ends as the numbers say, on every device and in every order of the threads. -/
theorem probeTable_follows (flip : Bool) (hp : table.Probeable probe build)
    (hrows : j.rowsFound table probe build < UInt64.size) (hd : d.RunsAll) :
    DeviceM.Follows JoinError.kind JoinResult.unflipped (j.probeTable flip table probe build)
      (j.probeTablePlan (j.load table probe build) table.capacity) d := by
  unfold probeTable probeTablePlan
  refine (estimate_follows hp hrows hd).bind (Estimator.estimate_balanced ..)
    fun estimate d' _ hb => ?_
  dsimp only [id]
  split
  · exact .pure _ _
  · refine counter_follows fun d'' hb' => ?_
    exact (grow_follows hp hrows _ _ _ (hd.became (hb.trans hb'))).map fun f => rfl

end HashJoin
end GridOps
