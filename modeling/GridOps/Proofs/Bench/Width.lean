import GridOps.Bench.Run
import GridOps.Proofs.Join.RowNumbers
import GridOps.Proofs.Join.Width

/-!
The row numbers that a benchmark chooses.

A benchmark joins with 32-bit row numbers just where a join with these accepts its relations
(`accepted_iff`).  So it never fails for want of row numbers, and where memory suffices its
measurement is that of the join with 64-bit row numbers (`row_width_unobservable`).
-/

namespace GridOps

open HashJoin

theorem HashJoin.Accepted.of_lt {K S : Type} [Word S] {left right : KeyColumns K}
    (hvalid : left.validate right = .ok ()) (hleft : left.len < Word.toNat (Word.top S))
    (hright : right.len < Word.toNat (Word.top S)) : Accepted S left right where
  valid := hvalid
  leftRows := if_neg (Nat.not_le_of_lt hleft)
  rightRows := if_neg (Nat.not_le_of_lt hright)

namespace RelationPair

variable {K : Type}

/-- The left side of the join that is measured. -/
def outerSide (p : RelationPair K) : KeyColumns K := ⟨p.outer, []⟩

/-- The right side of the join that is measured. -/
def innerSide (p : RelationPair K) : KeyColumns K := ⟨p.inner, []⟩

/-- A join with row numbers of this type accepts both relations if they are short enough. -/
theorem accepted_iff (S : Type) [Word S] (p : RelationPair K) :
    Accepted S p.outerSide p.innerSide ↔
      max p.inner.size p.outer.size < Word.toNat (Word.top S) := by
  constructor
  · intro h
    exact Nat.max_lt.mpr ⟨checkRows_ok h.rightRows, checkRows_ok h.leftRows⟩
  · intro h
    obtain ⟨hinner, houter⟩ := Nat.max_lt.mp h
    exact .of_lt rfl houter hinner

theorem sizes_lt {p : RelationPair K} (h : Accepted UInt32 p.outerSide p.innerSide) :
    p.outerSide.len < UInt32.size - 1 ∧ p.innerSide.len < UInt32.size - 1 :=
  ⟨checkRows_ok h.leftRows, checkRows_ok h.rightRows⟩

variable [JoinKey K] (S : Type) [Word S] (p : RelationPair K) (j : HashJoin) (d : Device)

theorem measureWith_eq :
    p.measureWith S j d =
      match (j.execute Keying.default p.outerSide p.innerSide d :
        EStateM.Result JoinError Device (JoinResult S)) with
      | .ok r d' => .ok ⟨r.len, r.statistics⟩ (d'.release r.bytes)
      | .error e d' => .error e d' := by
  change EStateM.bind (j.execute Keying.default p.outerSide p.innerSide) _ d = _
  unfold EStateM.bind
  cases (j.execute Keying.default p.outerSide p.innerSide d :
    EStateM.Result JoinError Device (JoinResult S)) <;> rfl

variable {S p j d}

/-- A measurement runs out of memory only if its join does. -/
theorem execute_affordedBy (h : (p.measureWith S j).AffordedBy d) :
    (j.execute Keying.default p.outerSide p.innerSide :
      DeviceM JoinError (JoinResult S)).AffordedBy d := fun e d' he =>
  h e d' (by rw [measureWith_eq, he])

/-- Measurements of joins that end alike end alike. -/
theorem measureWith_ending {T : Type} [Word T]
    (h : SameOutcome
      (j.execute Keying.default p.outerSide p.innerSide d :
        EStateM.Result JoinError Device (JoinResult S))
      (j.execute Keying.default p.outerSide p.innerSide d :
        EStateM.Result JoinError Device (JoinResult T))) :
    (p.measureWith S j).ending JoinError.kind id d =
      (p.measureWith T j).ending JoinError.kind id d := by
  unfold DeviceM.ending
  rw [measureWith_eq, measureWith_eq]
  cases hr : (j.execute Keying.default p.outerSide p.innerSide d :
      EStateM.Result JoinError Device (JoinResult S)) <;>
    cases hr' : (j.execute Keying.default p.outerSide p.innerSide d :
      EStateM.Result JoinError Device (JoinResult T)) <;>
    rw [hr, hr'] at h
  case ok.ok =>
    obtain ⟨-, hlen, hstatistics⟩ := h
    dsimp only
    rw [hlen, hstatistics]
  case error.error => exact congrArg Except.error h.symm
  all_goals exact h.elim

theorem measureWith_failsWith (hinner : p.inner.size < Word.toNat (Word.top S))
    (houter : p.outer.size < Word.toNat (Word.top S)) :
    (p.measureWith S j).FailsWith JoinError.IsOther := by
  have hjoin : DeviceM.FailsWith JoinError.IsOther
      (j.execute Keying.default p.outerSide p.innerSide : DeviceM JoinError (JoinResult S)) :=
    execute_failsWith houter hinner Keying.default
  exact hjoin.bind fun _ => by rintro d e d' ⟨⟩

/-! ## The choice -/

theorem measure_of_accepted (h : Accepted UInt32 p.outerSide p.innerSide) :
    p.measure j = p.measureWith UInt32 j := if_pos ((accepted_iff UInt32 p).mp h)

theorem measure_of_not_accepted (h : ¬Accepted UInt32 p.outerSide p.innerSide) :
    p.measure j = p.measureWith UInt64 j := if_neg fun hlt => h ((accepted_iff UInt32 p).mpr hlt)

theorem measure_failsWith (hinner : p.inner.size < UInt64.size - 1)
    (houter : p.outer.size < UInt64.size - 1) : (p.measure j).FailsWith JoinError.IsOther := by
  by_cases h : Accepted UInt32 p.outerSide p.innerSide
  · rw [measure_of_accepted h]
    exact measureWith_failsWith (checkRows_ok h.rightRows) (checkRows_ok h.leftRows)
  · rw [measure_of_not_accepted h]
    exact measureWith_failsWith hinner houter

theorem measure_ending (hd : d.OneWorker) (h : (p.measure j).AffordedBy d)
    (hwide : (p.measureWith UInt64 j).AffordedBy d) :
    (p.measure j).ending JoinError.kind id d =
      (p.measureWith UInt64 j).ending JoinError.kind id d := by
  by_cases haccepted : Accepted UInt32 p.outerSide p.innerSide
  · rw [measure_of_accepted haccepted] at h ⊢
    obtain ⟨houter, hinner⟩ := sizes_lt haccepted
    exact measureWith_ending (widens_32_64.sameOutcome Keying.default houter hinner hd
      (execute_affordedBy h) (execute_affordedBy hwide))
  · rw [measure_of_not_accepted haccepted]

/-- Where the measurement with 64-bit row numbers returns, the other needs no more memory. -/
theorem measure_ending_of_ok (hd : d.OneWorker) {m : Measurement} {d' : Device}
    (h : p.measureWith UInt64 j d = .ok m d') :
    (p.measure j).ending JoinError.kind id d = .ok m := by
  have hwide : (p.measureWith UInt64 j).ending JoinError.kind id d = .ok m := DeviceM.ending_of_ok h
  by_cases haccepted : Accepted UInt32 p.outerSide p.innerSide
  · obtain ⟨houter, hinner⟩ := sizes_lt haccepted
    rw [measure_of_accepted haccepted, ← hwide]
    rw [measureWith_eq] at h
    split at h
    · rename_i r d₁ hr
      exact measureWith_ending (widens_32_64.sameOutcome_of_ok Keying.default houter hinner hd hr)
    · cases h
  · rw [measure_of_not_accepted haccepted, hwide]

end RelationPair
end GridOps
