import GridOps.WordPiece.Tensor

/-!
Calls of one tokenizer, one after another, on its device.

A session holds the results of the calls that succeeded, numbered from zero, until they are dropped.
A call that fails leaves nothing behind, and dropping a result again does nothing.
-/
namespace GridOps
namespace TokenizerSession

/-- What a tokenizer is asked for: the tokens of a batch, or a tensor of them. -/
inductive Call
  | tokenize (batch : Batch)
  | subword (batch : Batch)

inductive Held
  | tokens (tokens : TokenIds)
  | tensor (tensor : Tensor)
deriving DecidableEq, Repr

namespace Held

def bytes : Held → Nat
  | tokens t => t.bytes
  | tensor t => t.bytes

end Held

namespace Call

def execute (t : Tokenizer) : Call → DeviceM TokenizerError Held
  | tokenize b => do return .tokens (← t.tokenize b)
  | subword b => do return .tensor (← t.tensor b)

end Call

inductive Command
  | call (call : Call)
  | drop (id : Nat)

/-- The results by number, as far as they are still held, and the device. -/
structure State where
  results : List (Option Held)
  device : Device

namespace State

def start (device : Device) : State := ⟨[], device⟩

def held? (s : State) (id : Nat) : Option Held := s.results[id]?.join

def liveBytes (s : State) : Nat :=
  s.results.foldl (fun sum held? => sum + (held?.map Held.bytes).getD 0) 0

/-- Answers a call and, if it succeeds, holds its result under the next number. -/
def call (s : State) (t : Tokenizer) (c : Call) : Except TokenizerError Held × State :=
  match c.execute t s.device with
  | .ok held device => (.ok held, ⟨s.results ++ [some held], device⟩)
  | .error e device => (.error e, { s with device := device })

def drop (s : State) (id : Nat) : State :=
  match s.held? id with
  | some held => ⟨s.results.set id none, s.device.release held.bytes⟩
  | none => s

def step (t : Tokenizer) (s : State) : Command → State
  | .call c => (s.call t c).2
  | .drop id => s.drop id

def run (s : State) (t : Tokenizer) (commands : List Command) : State := commands.foldl (step t) s

end State
end TokenizerSession
end GridOps
