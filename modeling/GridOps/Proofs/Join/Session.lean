import GridOps.Join.Session
import GridOps.Proofs.Join.Result

/-!
The memory of a session of joins.

Between the commands of a session the device holds exactly the results that are kept: `Accounted`
is that invariant, every command keeps it (`Accounted.step`), and a fresh session has it.
-/

namespace GridOps
namespace JoinSession
namespace State

variable {s s' : State} {c : JoinCall}

/-- The memory taken on the device is that of the held results, within a capacity that is still the
first one. -/
structure Accounted (s : State) (capacity : Nat) : Prop where
  used : s.device.used = s.liveBytes
  capacity : s.device.capacity = capacity
  within : s.device.used ≤ s.device.capacity

/-! ## Single commands -/

theorem call_ok {h : HeldResult} (hcall : s.call c = (.ok h, s')) :
    s'.results = s.results ++ [some h] ∧ s.device.Became s'.device h.bytes := by
  unfold call at hcall
  cases hexecute : c.execute s.device with
  | ok r device =>
    rw [hexecute] at hcall
    cases hcall
    exact ⟨rfl, (HashJoin.execute_balanced _ _ _ _).ok hexecute⟩
  | error e device =>
    rw [hexecute] at hcall
    cases hcall

theorem call_error {e : JoinError} (hcall : s.call c = (.error e, s')) :
    s'.results = s.results ∧ s.device.Became s'.device 0 := by
  unfold call at hcall
  cases hexecute : c.execute s.device with
  | ok r device =>
    rw [hexecute] at hcall
    cases hcall
  | error e device =>
    rw [hexecute] at hcall
    cases hcall
    exact ⟨rfl, (HashJoin.execute_balanced _ _ _ _).error hexecute⟩

theorem heldBytes_append (results : List (Option HeldResult)) (h : HeldResult) :
    heldBytes (results ++ [some h]) = heldBytes results + h.bytes := by
  induction results with
  | nil => exact Nat.add_comm h.bytes 0
  | cons first rest ih =>
    cases first with
    | none => exact ih
    | some h' =>
      show h'.bytes + heldBytes (rest ++ [some h]) = h'.bytes + heldBytes rest + h.bytes
      rw [ih, Nat.add_assoc]

theorem heldBytes_set {results : List (Option HeldResult)} {id : Nat} {h : HeldResult}
    (hid : results[id]? = some (some h)) :
    heldBytes (results.set id none) + h.bytes = heldBytes results := by
  induction results generalizing id with
  | nil => cases hid
  | cons first rest ih =>
    cases id with
    | zero =>
      cases hid
      exact Nat.add_comm (heldBytes rest) h.bytes
    | succ id =>
      have hrest := ih hid
      cases first with
      | none => exact hrest
      | some h' =>
        show h'.bytes + heldBytes (rest.set id none) + h.bytes = h'.bytes + heldBytes rest
        rw [Nat.add_assoc, hrest]

/-- Dropping a held result takes its bytes off the live bytes. -/
theorem liveBytes_drop {id : Nat} {h : HeldResult} (hid : s.held? id = some h) :
    (s.drop id).liveBytes + h.bytes = s.liveBytes := by
  unfold drop
  rw [hid]
  exact heldBytes_set (Option.join_eq_some_iff.mp hid)

theorem drop_of_held {id : Nat} {h : HeldResult} (hid : s.held? id = some h) :
    (s.drop id).device = s.device.release h.bytes := by
  unfold drop
  rw [hid]

theorem drop_of_not_held {id : Nat} (hid : s.held? id = none) : s.drop id = s := by
  unfold drop
  rw [hid]

/-! ## The invariant -/

namespace Accounted

variable {capacity : Nat}

theorem start {d : Device} (hfresh : d.used = 0) : (State.start d).Accounted d.capacity where
  used := hfresh
  capacity := rfl
  within := by
    show d.used ≤ d.capacity
    omega

theorem call (h : s.Accounted capacity) (c : JoinCall) : (s.call c).2.Accounted capacity := by
  obtain ⟨answer, s', hcall⟩ : ∃ answer s', s.call c = (answer, s') := ⟨_, _, rfl⟩
  rw [hcall]
  cases answer with
  | ok held =>
    obtain ⟨hresults, hb⟩ := call_ok hcall
    refine ⟨?_, hb.capacity.trans h.capacity, hb.within h.within⟩
    rw [hb.used, h.used, liveBytes, liveBytes, hresults, heldBytes_append]
  | error e =>
    obtain ⟨hresults, hb⟩ := call_error hcall
    refine ⟨?_, hb.capacity.trans h.capacity, hb.within h.within⟩
    rw [hb.used, h.used, liveBytes, liveBytes, hresults, Nat.add_zero]

theorem drop (h : s.Accounted capacity) (id : Nat) : (s.drop id).Accounted capacity := by
  cases hid : s.held? id with
  | none =>
    rw [drop_of_not_held hid]
    exact h
  | some held =>
    have hlive := liveBytes_drop hid
    have hused := h.used
    have hwithin := h.within
    refine ⟨?_, ?_, ?_⟩
    · rw [drop_of_held hid]
      show s.device.used - held.bytes = _
      omega
    · rw [drop_of_held hid]
      exact h.capacity
    · rw [drop_of_held hid]
      show s.device.used - held.bytes ≤ s.device.capacity
      omega

theorem step (h : s.Accounted capacity) (command : Command) :
    (s.step command).Accounted capacity := by
  cases command with
  | call c => exact h.call c
  | drop id => exact h.drop id

theorem run (h : s.Accounted capacity) (commands : List Command) :
    (s.run commands).Accounted capacity := by
  induction commands generalizing s with
  | nil => exact h
  | cons command rest ih => exact ih (h.step command)

end Accounted

/-- In every session on a fresh device, whatever is called and dropped in whatever order: the memory
used is that of the results held and within the capacity, a call that succeeds takes the bytes of
its rows, a call that fails takes none, and a drop gives back the bytes of its result. -/
theorem run_accounts {d : Device} (hfresh : d.used = 0) (commands : List Command) {s : State}
    (hs : (start d).run commands = s) :
    (s.device.used = s.liveBytes ∧ s.device.used ≤ d.capacity) ∧
    (∀ c h s', s.call c = (.ok h, s') →
      s'.device.used = s.device.used + 2 * h.result.len * Word.bytes h.Row) ∧
    (∀ c e s', s.call c = (.error e, s') → s'.device.used = s.device.used) ∧
    (∀ id h, s.held? id = some h →
      (s.drop id).device.used + 2 * h.result.len * Word.bytes h.Row = s.device.used) := by
  have haccounted := (Accounted.start hfresh).run commands
  rw [hs] at haccounted
  have hwithin := haccounted.within
  rw [haccounted.capacity] at hwithin
  refine ⟨⟨haccounted.used, hwithin⟩, fun c h s' hcall => (call_ok hcall).2.used,
    fun c e s' hcall => (call_error hcall).2.used, fun id h hid => ?_⟩
  have hlive := liveBytes_drop hid
  have hdropped := (haccounted.drop id).used
  rw [hdropped, haccounted.used]
  exact hlive

/-- One result dropped and one kept, and a call in between whose output does not fit. -/
def sampleCommands : List Command :=
  let small : JoinCall := ⟨UInt32, UInt32, HashJoin.sampleJoin .left, .default,
    HashJoin.sampleLeft, HashJoin.sampleRight⟩
  let large : JoinCall := ⟨UInt64, UInt64, HashJoin.sampleJoin .inner, .default,
    ⟨Array.replicate 10 3, []⟩, ⟨Array.replicate 10 3, []⟩⟩
  [.call small, .call large, .call small, .drop 0, .drop 7]

theorem run_accounts_sample :
    ((start (.forwards 1000)).run sampleCommands).device.used = 40 ∧
      ((start (.forwards 1000)).run sampleCommands).liveBytes = 40 := by
  have hused : ((start (.forwards 1000)).run sampleCommands).device.used = 40 := by decide +kernel
  exact ⟨hused, (run_accounts (d := .forwards 1000) rfl sampleCommands rfl).1.1 ▸ hused⟩

end State
end JoinSession
end GridOps
