import GridOps.Join.HashJoin

/-!
When a join lacks row numbers.

Row numbers run short only if a side has as many rows as the largest word of their type, which
stands for no row.  A join of shorter sides fails for other reasons, if it fails
(`execute_failsWith`), on every device and with any number of workers.
-/

namespace GridOps

namespace DeviceM

variable {ε ε' α β : Type}

/-- Every failure of the operation has the property `P`. -/
def FailsWith (P : ε → Prop) (m : DeviceM ε α) : Prop := ∀ d e d', m d = .error e d' → P e

namespace FailsWith

variable {P : ε → Prop} {m : DeviceM ε α} {f : α → DeviceM ε β}

theorem pure (a : α) : FailsWith P (Pure.pure a : DeviceM ε α) := by rintro d e d' ⟨⟩

theorem fail {e : ε} (h : P e) : FailsWith P (DeviceM.fail e : DeviceM ε α) := by
  rintro d _ _ ⟨⟩
  exact h

theorem ofExcept {r : Except ε α} (h : ∀ e, r = .error e → P e) :
    FailsWith P (DeviceM.ofExcept r) := by
  intro d e d' he
  cases r with
  | ok a => cases he
  | error e =>
    cases he
    exact h e rfl

theorem bind (h : FailsWith P m) (h' : ∀ a, FailsWith P (f a)) : FailsWith P (m >>= f) := by
  intro d e d' he
  change EStateM.bind m f d = _ at he
  unfold EStateM.bind at he
  cases hm : m d with
  | ok a d₁ =>
    rw [hm] at he
    exact h' a d₁ e d' he
  | error e₁ d₁ =>
    rw [hm] at he
    cases he
    exact h d e d' hm

theorem mapError {g : ε' → ε} (m : DeviceM ε' α) (h : ∀ e, P (g e)) :
    FailsWith P (DeviceM.mapError g m) := by
  intro d e d' he
  unfold DeviceM.mapError at he
  split at he <;> cases he
  exact h _

theorem withBytes (bytes : Nat) (h : FailsWith P m) : FailsWith P (DeviceM.withBytes bytes m) := by
  intro d e d' he
  unfold DeviceM.withBytes at he
  split at he <;> cases he
  exact h d _ _ ‹_›

theorem keepingBytes (bytes : Nat) (h : FailsWith P m) :
    FailsWith P (DeviceM.keepingBytes bytes m) := by
  intro d e d' he
  unfold DeviceM.keepingBytes at he
  split at he <;> cases he
  exact h d _ _ ‹_›

end FailsWith
end DeviceM

/-- The failure is for want of row numbers. -/
def JoinError.LacksRowNumbers : JoinError → Prop
  | .buildRows _ | .inputRows _ => True
  | _ => False

namespace JoinError

/-- The failure is for another reason. -/
def IsOther (e : JoinError) : Prop := ¬e.LacksRowNumbers

theorem isOther_device (e : DeviceError) : (device e).IsOther := not_false

end JoinError

namespace KeyColumns

variable {K : Type} {left right side : KeyColumns K} {e : JoinError}

theorem checkSide_error (h : side.checkSide = .error e) : e.IsOther := by
  unfold checkSide at h
  split at h
  · cases h
    exact not_false
  · split at h <;> cases h
    exact not_false

theorem validate_error (h : left.validate right = .error e) : e.IsOther := by
  unfold validate at h
  cases hleft : left.checkSide with
  | error e' =>
    rw [hleft] at h
    cases h
    exact checkSide_error hleft
  | ok =>
    cases hright : right.checkSide with
    | error e' =>
      rw [hleft, hright] at h
      cases h
      exact checkSide_error hright
    | ok =>
      rw [hleft, hright] at h
      change (if _ then _ else _) = _ at h
      split at h
      · cases h
        exact not_false
      · split at h <;> cases h
        exact not_false

end KeyColumns

variable {K S σ : Type} [Word S]

theorem Prober.probe_failsWith (p : Prober) (table : Multimap K S) (probe build : KeyColumns K)
    (len : Nat) (emit : Emit S σ) (s : σ) :
    DeviceM.FailsWith JoinError.IsOther (p.probe table probe build len emit s) := by
  unfold Prober.probe
  dsimp only
  split
  · exact .pure s
  · exact .mapError _ JoinError.isOther_device

theorem Estimator.extrapolate_failsWith {count : Nat → DeviceM JoinError UInt64}
    (hcount : ∀ len, DeviceM.FailsWith JoinError.IsOther (count len)) (s : Sample)
    (rest : List Sample) (rounds : Nat) :
    DeviceM.FailsWith JoinError.IsOther (extrapolate count s rest rounds) := by
  induction rest generalizing s rounds with
  | nil =>
    unfold extrapolate
    refine (hcount s.len).bind fun n => ?_
    dsimp only
    split
    · exact .fail not_false
    · split <;> exact .pure _
  | cons next rest ih =>
    unfold extrapolate
    refine (hcount s.len).bind fun n => ?_
    dsimp only
    split
    · exact .fail not_false
    · split
      · exact .pure _
      · exact ih next (rounds + 1)

theorem Estimator.estimate_failsWith (e : Estimator) (table : Multimap K S)
    (probe build : KeyColumns K) :
    DeviceM.FailsWith JoinError.IsOther (e.estimate table probe build) := by
  unfold estimate
  split
  · exact .pure _
  · exact (DeviceM.FailsWith.mapError _ JoinError.isOther_device).bind fun _ =>
      .withBytes _ (extrapolate_failsWith (fun _ => Prober.probe_failsWith _ _ _ _ _ _ _) _ _ _)

namespace HashJoin

variable {j : HashJoin} {flip : Bool} {table : Multimap K S} {probe build : KeyColumns K}

theorem checkRows_error {side : KeyColumns K} (hside : side.len < Word.toNat (Word.top S))
    {e : JoinError} (h : checkRows S side = .error e) : e.IsOther := by
  rw [checkRows, if_neg (Nat.not_le_of_lt hside)] at h
  cases h

theorem attempt_failsWith (slots : Nat) :
    DeviceM.FailsWith JoinError.IsOther (j.attempt flip table probe build slots) := by
  refine (DeviceM.FailsWith.mapError _ JoinError.isOther_device).bind fun _ => .withBytes _ ?_
  refine (Prober.probe_failsWith _ _ _ _ _ _ _).bind fun output => ?_
  unfold finish
  dsimp only
  split
  · exact (DeviceM.FailsWith.mapError _ JoinError.isOther_device).bind fun _ => .pure _
  · exact .pure _

theorem checkLimit_error {found : Nat} {e : JoinError} (h : j.checkLimit found = .error e) :
    e.IsOther := by
  unfold checkLimit at h
  split at h
  · split at h <;> cases h
    exact not_false
  · cases h

theorem grow_failsWith (left retries slots : Nat) :
    DeviceM.FailsWith JoinError.IsOther (j.grow flip table probe build left retries slots) := by
  induction left using Nat.strongRecOn generalizing retries slots with
  | ind left ih =>
    unfold grow
    refine (attempt_failsWith slots).bind fun answer => ?_
    obtain ⟨found, _ | rows⟩ := answer
    · refine (DeviceM.FailsWith.ofExcept fun e => checkLimit_error).bind fun _ => ?_
      cases left with
      | zero => exact .fail not_false
      | succ left =>
        dsimp only
        split
        · exact .fail not_false
        · exact ih left (Nat.lt_succ_self left) _ _
    · exact .pure _

theorem probeTable_failsWith :
    DeviceM.FailsWith JoinError.IsOther (j.probeTable flip table probe build) := by
  refine (Estimator.estimate_failsWith _ _ _ _).bind fun e => ?_
  dsimp only
  split
  · exact .pure _
  · exact (DeviceM.FailsWith.mapError _ JoinError.isOther_device).bind fun _ =>
      .withBytes _ ((grow_failsWith _ _ _).bind fun _ => .pure _)

end HashJoin

/-! ## Building -/

namespace Multimap

variable [JoinKey K]

theorem capacityFor_error {rows percent : Nat} {e : JoinError}
    (h : capacityFor rows percent = .error e) : e.IsOther := by
  unfold capacityFor at h
  split at h
  · cases h
    exact not_false
  · split at h <;> cases h
    exact not_false

theorem allocate_failsWith (capacity : Nat) (keying : Keying K) :
    DeviceM.FailsWith JoinError.IsOther (allocate capacity keying : DeviceM _ (Multimap K S)) := by
  unfold allocate
  split
  · exact .fail not_false
  · refine (DeviceM.FailsWith.mapError _ JoinError.isOther_device).bind fun _ => .keepingBytes _ ?_
    intro d e d' h
    split at h <;> cases h
    exact not_false

/-- A build of fewer rows than the largest row number. -/
theorem buildOrFail_failsWith {keys : Array K} (hkeys : keys.size < Word.toNat (Word.top S))
    (m : Multimap K S) (block : UInt32) :
    DeviceM.FailsWith JoinError.IsOther (m.buildOrFail block keys) := by
  intro d e d' h
  unfold buildOrFail at h
  split at h <;> rename_i hbuild <;> cases h
  unfold build at hbuild
  rw [if_neg (Nat.not_le_of_lt hkeys)] at hbuild
  split at hbuild
  · cases hbuild
  · split at hbuild
    · cases hbuild
      exact not_false
    · cases hbuild
      exact not_false
    · dsimp only at hbuild
      split at hbuild
      · cases hbuild
        exact not_false
      · split at hbuild <;> cases hbuild
        exact not_false

end Multimap

namespace HashJoin

variable [JoinKey K] {j : HashJoin} {left right : KeyColumns K}

/-- A join of sides with fewer rows than the largest row number does not lack row numbers. -/
theorem execute_failsWith (hleft : left.len < Word.toNat (Word.top S))
    (hright : right.len < Word.toNat (Word.top S)) (keying : Keying K) :
    DeviceM.FailsWith JoinError.IsOther
      (j.execute keying left right : DeviceM JoinError (JoinResult S)) := by
  have hbuilt : (j.built left right).len < Word.toNat (Word.top S) := by
    unfold built
    split
    · exact hleft
    · exact hright
  refine (DeviceM.FailsWith.ofExcept fun e => KeyColumns.validate_error).bind fun _ => ?_
  refine (DeviceM.FailsWith.ofExcept fun e => checkRows_error hleft).bind fun _ => ?_
  refine (DeviceM.FailsWith.ofExcept fun e => checkRows_error hright).bind fun _ => ?_
  dsimp only
  split
  · exact .pure _
  · refine (DeviceM.FailsWith.ofExcept fun e => Multimap.capacityFor_error).bind fun capacity => ?_
    refine (Multimap.allocate_failsWith capacity keying).bind fun m => .withBytes _ ?_
    exact (Multimap.buildOrFail_failsWith hbuilt m j.block).bind fun _ => probeTable_failsWith

end HashJoin
end GridOps
