import GridOps.Proofs.Join.Outcome

/-!
How a join fails.

Sides that no join accepts and a reserved key on the side that is built over are invalid arguments
(`execute_failures`).  Everything else that goes wrong is a matter of size: a buffer, a number or a
grid that is too large, or more rows than the limit or the retries allow.  No table is ever full and
no kernel faults.
-/

namespace GridOps

namespace HashJoin

/-! ## Kinds of failures -/

/-- A kind of failure that comes from the amount of data. -/
def OfAmount (kind : ErrorKind) : Prop := Plan.OfSize kind ∨ kind = .outputLimitExceeded

section Plans

variable {j : HashJoin} {w : Load}

theorem countPlan_failsWith (len : Nat) : Plan.FailsWith Plan.OfSize (j.countPlan w len) :=
  (Plan.launch_failsWith _ _).bind fun _ => .pure _

theorem extrapolatePlan_failsWith (s : Sample) (rest : List Sample) (rounds : Nat) :
    Plan.FailsWith Plan.OfSize (j.extrapolatePlan w s rest rounds) := by
  induction rest generalizing s rounds with
  | nil =>
    unfold extrapolatePlan
    refine (countPlan_failsWith s.len).bind fun n => ?_
    dsimp only
    split
    · exact .fail (Or.inl rfl)
    · split <;> exact .pure _
  | cons next rest ih =>
    unfold extrapolatePlan
    refine (countPlan_failsWith s.len).bind fun n => ?_
    dsimp only
    split
    · exact .fail (Or.inl rfl)
    · split
      · exact .pure _
      · exact ih next (rounds + 1)

theorem estimatePlan_failsWith : Plan.FailsWith Plan.OfSize (j.estimatePlan w) := by
  unfold estimatePlan
  split
  · exact .pure _
  · exact Plan.withCounter_failsWith (fun _ => id) (extrapolatePlan_failsWith _ _ _)

theorem attemptPlan_failsWith (slots : Nat) :
    Plan.FailsWith Plan.OfSize (j.attemptPlan w slots) := by
  have hsplit : Plan.FailsWith Plan.OfSize (j.splitPlan w.rows w.rowBytes) :=
    (Plan.allocate_failsWith _ _).bind fun _ => .hold _ (Plan.launch_failsWith _ _)
  have hfinish : Plan.FailsWith Plan.OfSize (j.finishPlan w slots) := by
    unfold finishPlan
    split
    · exact hsplit.bind fun _ => .pure _
    · exact .pure _
  exact (Plan.allocate_failsWith _ _).bind fun _ =>
    .hold _ ((Plan.launch_failsWith _ _).bind fun _ => hfinish)

theorem checkLimit_failsWith (found : Nat) :
    Plan.FailsWith OfAmount (Plan.ofExcept JoinError.kind (j.checkLimit found)) := by
  rcases j.checkLimit_cases found with ⟨limit, -, -, hcheck⟩ | ⟨-, hcheck⟩ <;> rw [hcheck]
  · exact .fail (Or.inr rfl)
  · exact .pure _

theorem growPlan_failsWith (left retries slots : Nat) :
    Plan.FailsWith OfAmount (j.growPlan w left retries slots) := by
  induction left using Nat.strongRecOn generalizing retries slots with
  | ind left ih =>
    unfold growPlan
    refine ((attemptPlan_failsWith slots).mono fun _ => Or.inl).bind fun answer => ?_
    obtain ⟨found, fits⟩ := answer
    cases fits with
    | true => exact .pure _
    | false =>
      refine (checkLimit_failsWith found).bind fun _ => ?_
      cases left with
      | zero => exact .fail (Or.inr rfl)
      | succ left =>
        dsimp only
        split
        · exact .fail (Or.inl (Or.inl rfl))
        · exact ih left (Nat.lt_succ_self left) _ _

theorem probeTablePlan_failsWith (capacity : Nat) :
    Plan.FailsWith OfAmount (j.probeTablePlan w capacity) := by
  unfold probeTablePlan
  refine (estimatePlan_failsWith.mono fun _ => Or.inl).bind fun e => ?_
  split
  · exact .pure _
  · exact Plan.withCounter_failsWith (fun _ => Or.inl)
      ((growPlan_failsWith _ _ _).bind fun _ => .pure _)

theorem capacityFor_failsWith (rows : Nat) : Plan.FailsWith Plan.OfSize
    (Plan.ofExcept JoinError.kind (Multimap.capacityFor rows j.occupancy)) := by
  rw [capacityFor_eq]
  split
  · exact .fail (Or.inl rfl)
  · exact .pure _

/-- A plan fails for want of something, or refuses a reserved key that it would store. -/
theorem executePlan_failsWith (reserved : Bool) (slotBytes : Nat) :
    Plan.FailsWith (fun kind => OfAmount kind ∨ (kind = .invalidArgument ∧ reserved = true ∧
      ¬(w.probeRows = 0 ∨ (w.buildRows = 0 ∧ j.joinType = .inner))))
      (j.executePlan w reserved slotBytes) := by
  have hamount : ∀ kind, Plan.OfSize kind → OfAmount kind ∨ (kind = .invalidArgument ∧
      reserved = true ∧ ¬(w.probeRows = 0 ∨ (w.buildRows = 0 ∧ j.joinType = .inner))) :=
    fun _ h => Or.inl (Or.inl h)
  unfold executePlan
  split
  · exact .pure _
  · rename_i hrows
    refine ((capacityFor_failsWith _).mono hamount).bind fun capacity => ?_
    refine ((Plan.allocate_failsWith _ _).mono hamount).bind fun _ => .hold _ ?_
    refine Plan.FailsWith.bind ?_ fun _ => (probeTablePlan_failsWith capacity).mono fun _ => Or.inl
    unfold buildPlan
    split
    · exact .pure _
    · have hcounters := Plan.withCounter_failsWith (fun _ => id)
        (Plan.withCounter_failsWith (fun _ => id) (.pure ()))
      have hfill : Plan.FailsWith Plan.OfSize (fillPlan j.block w.buildRows) :=
        (Plan.launch_failsWith _ _).bind fun _ => hcounters
      refine (hfill.mono hamount).bind fun _ => ?_
      split
      · rename_i hreserved
        exact .fail (Or.inr ⟨rfl, hreserved, hrows⟩)
      · exact .pure _

/-- With the memory of a build, a reserved key is refused. -/
theorem executePlan_refuses {slotBytes free : Nat}
    (hrows : ¬(w.probeRows = 0 ∨ (w.buildRows = 0 ∧ j.joinType = .inner)))
    (hbuild : w.buildRows ≠ 0) (hsmall : w.buildRows < UInt32.size)
    (hhost : j.tableSlots w.buildRows * slotBytes ≤ maxHostBytes)
    (henough : j.tableSlots w.buildRows * slotBytes + 16 ≤ free) :
    (j.executePlan w true slotBytes).ends free = .error .invalidArgument := by
  have hcapacity : Multimap.capacityFor w.buildRows j.occupancy =
      .ok (j.tableSlots w.buildRows) := by
    have hmax : Device.maxBytes = 18446744073709551615 := rfl
    have hsize : UInt32.size = 4294967296 := rfl
    rw [capacityFor_eq, if_neg (by omega)]
  have hgrid : w.buildRows ≤ (UInt32.size - 1) * j.block.toNat :=
    Nat.le_trans (Nat.le_sub_one_of_lt hsmall)
      (Nat.le_mul_of_pos_right _ (Launch.toNat_pos j.block_ne))
  unfold executePlan
  rw [if_neg hrows, Plan.bind_of_ok ((Plan.ofExcept_needs hcapacity).ok (Nat.zero_le _)),
    Plan.bind_of_ok ((Plan.allocate_needs hhost).ok (by omega)), Plan.ends_hold]
  refine Plan.bind_of_error ?_
  unfold buildPlan
  rw [if_neg hbuild, Plan.bind_of_ok ((fillPlan_needs hgrid).ok (by omega))]
  rfl

end Plans

/-! ## Failures of a join -/

variable {K S : Type} [Word S] {j : HashJoin} {left right : KeyColumns K} {d : Device}

/-- A number of rows that four bytes hold leaves room for a grid. -/
theorem add_size_le {rows : Nat} (h : rows < UInt32.size - 1) :
    rows + UInt32.size ≤ UInt64.size := by
  have hsize : UInt32.size = 4294967296 := rfl
  have hsize64 : UInt64.size = 18446744073709551616 := rfl
  omega

theorem checkRows_of_lt {side : KeyColumns K} (hwidth : 4 ≤ Word.bytes S)
    (h : side.len < UInt32.size - 1) : checkRows S side = .ok () :=
  if_neg (Nat.not_le_of_lt (Nat.lt_of_lt_of_le h (Word.size_pred_le_top hwidth)))

/-- Sides of moderate length are accepted unless they are mismatched. -/
theorem accepted_of_match (hwidth : 4 ≤ Word.bytes S) (hleft : left.len < UInt32.size - 1)
    (hright : right.len < UInt32.size - 1) (hmatch : ¬left.Mismatched right) :
    Accepted S left right where
  valid := ((left.validate_cases right).resolve_left fun h => hmatch h.1).2
  leftRows := checkRows_of_lt hwidth hleft
  rightRows := checkRows_of_lt hwidth hright

variable [JoinKey K] {keying : Keying K}

theorem execute_of_mismatch (S : Type) [Word S] (j : HashJoin) (keying : Keying K)
    (h : left.Mismatched right) (d : Device) :
    ∃ e, (j.execute keying left right d : EStateM.Result JoinError Device (JoinResult S)) =
      .error e d ∧ e.kind = .invalidArgument := by
  obtain ⟨-, e, he, hkind⟩ := (left.validate_cases right).resolve_right fun h' => h'.1 h
  exact ⟨e, DeviceM.bind_of_error (DeviceM.ofExcept_of_error he d), hkind⟩

/-- Sides of moderate length have fewer result rows than a word counts, whatever the keying. -/
theorem rows_loadOn_lt (keying : Keying K) (hleft : left.len < UInt32.size - 1)
    (hright : right.len < UInt32.size - 1) (hd : d.RunsAll) :
    (j.loadOn S keying left right d).rows < UInt64.size := by
  have hsize : UInt32.size = 4294967296 := rfl
  have hprobed := probed_of (P := (·.len < UInt32.size - 1)) hleft hright j
  have hbuilt := built_of (P := (·.len < UInt32.size - 1)) hleft hright j
  refine Nat.lt_of_le_of_lt (rows_loadOn_le (add_size_le hbuilt) hd) ?_
  have hmul : (j.probed left right).len * max (j.built left right).len 1 ≤
      (UInt32.size - 1) * (UInt32.size - 1) := Nat.mul_le_mul (by omega) (by omega)
  exact Nat.lt_of_le_of_lt hmul (by decide)

/-- How a join of moderate sides that match ends. -/
theorem execute_follows_of_match (j : HashJoin) (keying : Keying K) (hwidth : 4 ≤ Word.bytes S)
    (hleft : left.len < UInt32.size - 1) (hright : right.len < UInt32.size - 1)
    (hmatch : ¬left.Mismatched right) (hd : d.RunsAll) :
    DeviceM.Follows JoinError.kind JoinResult.unflipped
      (j.execute keying left right : DeviceM JoinError (JoinResult S))
      (j.executePlan (j.loadOn S keying left right d)
        (decide (JoinKey.reserved K ∈ (j.built left right).keys)) (Multimap.slotBytes K S)) d := by
  have hprobed := probed_of (P := (·.len < UInt32.size - 1)) hleft hright j
  exact execute_follows (accepted_of_match hwidth hleft hright hmatch) (add_size_le hprobed)
    (rows_loadOn_lt keying hleft hright hd) hd

/-- What a failure of such a join can be. -/
theorem execute_error (hwidth : 4 ≤ Word.bytes S) (hleft : left.len < UInt32.size - 1)
    (hright : right.len < UInt32.size - 1) (hmatch : ¬left.Mismatched right) (hd : d.RunsAll)
    {e : JoinError} {d' : Device}
    (h : (j.execute keying left right d : EStateM.Result JoinError Device (JoinResult S)) =
      .error e d') :
    OfAmount e.kind ∨ (e.kind = .invalidArgument ∧
      JoinKey.reserved K ∈ (j.built left right).keys ∧ ¬j.TriviallyEmpty left right) := by
  have hfollows := execute_follows_of_match j keying hwidth hleft hright hmatch hd
  have hplan := executePlan_failsWith _ _ _ _
    (hfollows.symm.trans (DeviceM.ending_of_error h))
  exact hplan.imp_right fun ⟨hkind, hreserved, hrows⟩ =>
    ⟨hkind, of_decide_eq_true hreserved, hrows⟩

/-- The host holds every table over a side of moderate length. -/
theorem tableBytes_le (hwidth : Word.bytes S = 4 ∨ Word.bytes S = 8) {rows : Nat}
    (hrows : rows < UInt32.size) :
    j.tableSlots rows * Multimap.slotBytes K S ≤ maxHostBytes := by
  have hsize : UInt32.size = 4294967296 := rfl
  have hbytes : maxHostBytes = 9223372036854775807 := rfl
  have hslot : Multimap.slotBytes K S ≤ 16 := by
    rw [Multimap.slotBytes_eq hwidth]
    split <;> omega
  have hmul := Nat.mul_le_mul (j.tableSlots_le rows) hslot
  omega

/-- With the memory of the build, a reserved key on the built side is refused. -/
theorem execute_refuses (hwidth : Word.bytes S = 4 ∨ Word.bytes S = 8)
    (hleft : left.len < UInt32.size - 1) (hright : right.len < UInt32.size - 1)
    (hmatch : ¬left.Mismatched right) (hd : d.RunsAll) (hrows : ¬j.TriviallyEmpty left right)
    (hreserved : JoinKey.reserved K ∈ (j.built left right).keys)
    (henough : j.tableSlots (j.built left right).len * Multimap.slotBytes K S + 16 ≤ d.available) :
    ∃ e d', (j.execute keying left right d : EStateM.Result JoinError Device (JoinResult S)) =
      .error e d' ∧ e.kind = .invalidArgument := by
  have hword : 4 ≤ Word.bytes S := by omega
  have hfollows := execute_follows_of_match j keying hword hleft hright hmatch hd
  have hsize : UInt32.size = 4294967296 := rfl
  have hbuilt := built_of (P := (·.len < UInt32.size - 1)) hleft hright j
  have hsome : (j.built left right).len ≠ 0 :=
    Nat.ne_of_gt (Array.size_pos_of_mem hreserved)
  have hplan := executePlan_refuses (w := j.loadOn S keying left right d) hrows hsome (by
    rw [buildRows_loadOn]; omega) (tableBytes_le hwidth (by rw [buildRows_loadOn]; omega)) henough
  rw [decide_eq_true hreserved] at hfollows
  exact DeviceM.ending_error (hfollows.trans hplan)

/-- Whatever the keying, a join of moderate sides never fails since a table is full or a kernel
faults.  With the memory of its build it fails with an invalid argument exactly if the sides are
mismatched or a key that would be stored is reserved.  Reserved keys on the probed side are no
failure. -/
theorem execute_failures (hwidth : Word.bytes S = 4 ∨ Word.bytes S = 8)
    (hleft : left.len < UInt32.size - 1) (hright : right.len < UInt32.size - 1)
    (hd : d.RunsAll) :
    (∀ e d', (j.execute keying left right d : EStateM.Result JoinError Device (JoinResult S)) =
      .error e d' → e.kind ≠ .hashTableFull ∧ e.kind ≠ .launchFailed) ∧
    (j.tableSlots (j.built left right).len * Multimap.slotBytes K S + 16 ≤ d.available →
      ((∃ e d', (j.execute keying left right d : EStateM.Result JoinError Device (JoinResult S)) =
          .error e d' ∧ e.kind = .invalidArgument) ↔
        left.Mismatched right ∨ (¬j.TriviallyEmpty left right ∧
          JoinKey.reserved K ∈ (j.built left right).keys))) ∧
    (¬left.Mismatched right →
      j.TriviallyEmpty left right ∨ JoinKey.reserved K ∉ (j.built left right).keys → ∀ e d',
      (j.execute keying left right d : EStateM.Result JoinError Device (JoinResult S)) =
        .error e d' → e.kind = .integerOverflow ∨ e.kind = .outOfMemory ∨
          e.kind = .outputLimitExceeded) := by
  by_cases hmatch : left.Mismatched right
  · obtain ⟨e, he, hkind⟩ := execute_of_mismatch S j keying hmatch d
    refine ⟨fun e' d' he' => ?_, fun _ => iff_of_true ⟨e, d, he, hkind⟩ (Or.inl hmatch),
      fun h => absurd hmatch h⟩
    cases he.symm.trans he'
    rw [hkind]
    decide
  · have hword : 4 ≤ Word.bytes S := by omega
    refine ⟨fun e d' he => ?_, fun henough => ⟨?_, ?_⟩, fun _ hkeys e d' he => ?_⟩
    · rcases execute_error hword hleft hright hmatch hd he with
        ((h | h) | h) | ⟨h, -⟩ <;> rw [h] <;> decide
    · rintro ⟨e, d', he, hkind⟩
      rcases execute_error hword hleft hright hmatch hd he with
        ((h | h) | h) | ⟨-, hreserved, hrows⟩
      · cases h.symm.trans hkind
      · cases h.symm.trans hkind
      · cases h.symm.trans hkind
      · exact Or.inr ⟨hrows, hreserved⟩
    · rintro (h | ⟨hrows, hreserved⟩)
      · exact absurd h hmatch
      · exact execute_refuses hwidth hleft hright hmatch hd hrows hreserved henough
    · rcases execute_error hword hleft hright hmatch hd he with
        ((h | h) | h) | ⟨-, hreserved, hrows⟩
      · exact Or.inl h
      · exact Or.inr (Or.inl h)
      · exact Or.inr (Or.inr h)
      · exact absurd hreserved (hkeys.resolve_left hrows)

def plainSide : KeyColumns UInt32 := ⟨#[7, 1, 2], []⟩

def reservedSide : KeyColumns UInt32 := ⟨#[7, JoinKey.reserved UInt32], []⟩

/-- The shorter side is built over, and is refused.  In the left join it is probed. -/
theorem execute_failures_reserved :
    (∃ e d, ((sampleJoin .inner).execute .default plainSide reservedSide (.forwards 1000) :
      EStateM.Result JoinError Device (JoinResult UInt32)) = .error e d ∧
        e.kind = .invalidArgument) ∧
    ∀ e d, ((sampleJoin .left).execute .default reservedSide plainSide (.forwards 1000) :
      EStateM.Result JoinError Device (JoinResult UInt32)) = .error e d →
        e.kind = .integerOverflow ∨ e.kind = .outOfMemory ∨ e.kind = .outputLimitExceeded := by
  have hd : (Device.forwards 1000).RunsAll := (Device.forwards_oneWorker 1000).runsAll
  exact ⟨((execute_failures (Or.inl rfl) (by decide) (by decide) hd).2.1 (by decide)).mpr
      (Or.inr ⟨by decide, by decide +kernel⟩),
    (execute_failures (Or.inl rfl) (by decide) (by decide) hd).2.2 (by decide)
      (Or.inr (by decide +kernel))⟩

end HashJoin
end GridOps
