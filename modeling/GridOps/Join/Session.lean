import GridOps.Join.HashJoin

/-!
Joins one after another on one device.

A session holds the results of the joins that succeeded, numbered from zero, until they are
dropped.  A join that fails leaves nothing behind, and dropping a result again does nothing.
-/
namespace GridOps

structure JoinCall where
  Key : Type
  Row : Type
  [key : JoinKey Key]
  [row : Word Row]
  join : HashJoin
  keying : Keying Key
  left : KeyColumns Key
  right : KeyColumns Key

structure HeldResult where
  Row : Type
  [row : Word Row]
  result : JoinResult Row

namespace JoinCall

attribute [instance] key row

def execute (c : JoinCall) : DeviceM JoinError (JoinResult c.Row) :=
  c.join.execute c.keying c.left c.right

end JoinCall

namespace HeldResult

attribute [instance] row

def bytes (h : HeldResult) : Nat := h.result.bytes

end HeldResult

namespace JoinSession

/-- The bytes of the results that are held. -/
def heldBytes : List (Option HeldResult) → Nat
  | [] => 0
  | none :: rest => heldBytes rest
  | some h :: rest => h.bytes + heldBytes rest

/-- The results by number, as far as they are still held, and the device. -/
structure State where
  results : List (Option HeldResult)
  device : Device

inductive Command
  | call (call : JoinCall)
  | drop (id : Nat)

namespace State

def start (device : Device) : State := ⟨[], device⟩

def held? (s : State) (id : Nat) : Option HeldResult := s.results[id]?.join

def liveBytes (s : State) : Nat := heldBytes s.results

/-- Runs a join and, if it succeeds, holds its result under the next number. -/
def call (s : State) (c : JoinCall) : Except JoinError HeldResult × State :=
  match c.execute s.device with
  | .ok r device => (.ok ⟨c.Row, r⟩, ⟨s.results ++ [some ⟨c.Row, r⟩], device⟩)
  | .error e device => (.error e, { s with device := device })

def drop (s : State) (id : Nat) : State :=
  match s.held? id with
  | some h => ⟨s.results.set id none, s.device.release h.bytes⟩
  | none => s

def step (s : State) : Command → State
  | .call c => (s.call c).2
  | .drop id => s.drop id

def run (s : State) (commands : List Command) : State := commands.foldl step s

def close (s : State) : State := (List.range s.results.length).foldl drop s

end State
end JoinSession
end GridOps
