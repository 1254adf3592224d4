import GridOps.Device.Basic

/-!
The workers of a launch, one step at a time.

A worker asks the dispatcher for a morsel and runs the kernel for the threads of the morsel's
blocks, one after another.  Then it asks again, until it is refused.  The steps of the workers
happen one after another; a schedule says in which order.
-/
namespace GridOps

inductive Worker
  /-- Has these threads of its morsel to run yet, and asks again when it has none. -/
  | busy (left : List Thread)
  | refused
deriving DecidableEq, Repr

/-- The workers of a launch, and the threads for which they have run the kernel so far, in the order
in which they did. -/
structure Crew where
  launch : Launch
  dispatcher : Dispatcher
  workers : List Worker
  ran : List Thread
deriving DecidableEq, Repr

namespace Worker

/-- The answer to a request. -/
def answered (l : Launch) : Option Morsel → Worker
  | some m => busy (m.blocks.flatMap l.blockThreads)
  | none => refused

def left : Worker → List Thread
  | busy left => left
  | refused => []

end Worker

namespace Crew

def start (d : Device) (l : Launch) : Crew :=
  ⟨l, .start l.grid d.morsel, List.replicate (d.busyWorkers l.grid) (.busy []), []⟩

/-- A step of worker `w`.  A worker that was refused has none. -/
def step (s : Crew) (w : Nat) : Crew :=
  match s.workers[w]? with
  | some (.busy (t :: left)) =>
    { s with workers := s.workers.set w (.busy left), ran := s.ran ++ [t] }
  | some (.busy []) =>
    let (morsel?, dispatcher) := s.dispatcher.next
    { s with dispatcher := dispatcher, workers := s.workers.set w (.answered s.launch morsel?) }
  | some .refused | none => s

def run (s : Crew) (schedule : List Nat) : Crew := schedule.foldl step s

/-- Every worker has been refused. -/
def Finished (s : Crew) : Prop := ∀ w ∈ s.workers, w = .refused

instance (s : Crew) : Decidable s.Finished := inferInstanceAs (Decidable (∀ _ ∈ _, _))

end Crew
end GridOps
