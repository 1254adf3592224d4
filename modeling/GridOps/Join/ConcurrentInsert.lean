import GridOps.Join.Cell
import GridOps.Join.Multimap

/-!
Inserts into one multimap by several threads, one atomic step at a time.

A slot is a cell for a key and a cell for a row.  An insert goes along the walk of its key: at each
slot it tries to exchange the reserved key for its own, and goes on to the next slot if another key
is there.  In the slot that it has taken it stores its row.  The steps happen one after another; a
schedule says in which order.
-/
namespace GridOps

/-- The cells of a slot.  A free slot has the reserved key. -/
structure Slot (K S : Type) where
  key : K
  row : S
deriving DecidableEq, Repr

namespace Slot

variable {K S : Type} [JoinKey K] [Word S]

def ofEntry? : Option (K × S) → Slot K S
  | none => ⟨JoinKey.reserved K, Word.top S⟩
  | some (key, row) => ⟨key, row⟩

def entry? (slot : Slot K S) : Option (K × S) :=
  if slot.key = JoinKey.reserved K then none else some (slot.key, slot.row)

end Slot

/-- How far an insert has come. -/
inductive InsertProgress
  /-- Slot `i` is the next to try, and there are `left` more after it. -/
  | walking (i left : Nat)
  /-- Slot `i` has the key, but not the row. -/
  | claimed (i : Nat)
  | stored (i : Nat)
  | refused
deriving DecidableEq, Repr

namespace InsertProgress

/-- After a slot that is taken comes the next of the walk, if any is left. -/
def pastTaken (capacity i : Nat) : (left : Nat) → InsertProgress
  | 0 => refused
  | left + 1 => walking (if i + 1 = capacity then 0 else i + 1) left

end InsertProgress

/-- A thread that inserts an entry. -/
structure Inserter (K S : Type) where
  key : K
  row : S
  progress : InsertProgress
deriving DecidableEq, Repr

namespace Inserter

variable {K S : Type} [JoinKey K]

/-- An insert starts at the home slot and tries every slot at most once. -/
def start (m : Multimap K S) (e : K × S) : Inserter K S :=
  ⟨e.1, e.2, .walking (m.home e.1) (m.capacity - 1)⟩

def entry (inserter : Inserter K S) : K × S := (inserter.key, inserter.row)

/-- What the insert has returned, if it has. -/
def answer? (inserter : Inserter K S) : Option Bool :=
  match inserter.progress with
  | .walking .. | .claimed _ => none
  | .stored _ => some true
  | .refused => some false

/-- The next step of the insert on the slots.  It has none after it has returned. -/
def step (inserter : Inserter K S) (slots : Array (Slot K S)) :
    Inserter K S × Array (Slot K S) :=
  match inserter.progress with
  | .walking i left =>
    match slots[i]? with
    | none => (inserter, slots)
    | some slot =>
      match (CellStep.compareExchange (JoinKey.reserved K) inserter.key).apply slot.key with
      | (.exchanged _, key) =>
        ({ inserter with progress := .claimed i }, slots.setIfInBounds i { slot with key := key })
      | _ => ({ inserter with progress := .pastTaken slots.size i left }, slots)
  | .claimed i =>
    ({ inserter with progress := .stored i },
      slots.modify i fun slot => { slot with row := inserter.row })
  | .stored _ | .refused => (inserter, slots)

end Inserter

/-- The slots of a multimap and the threads that insert into it. -/
structure SharedTable (K S : Type) where
  slots : Array (Slot K S)
  keying : Keying K
  inserters : List (Inserter K S)

namespace SharedTable

variable {K S : Type} [JoinKey K] [Word S]

def start (m : Multimap K S) (entries : List (K × S)) : SharedTable K S :=
  ⟨m.slots.map Slot.ofEntry?, m.keying, entries.map (Inserter.start m)⟩

/-- A step of thread `t`. -/
def step (s : SharedTable K S) (t : Nat) : SharedTable K S :=
  match s.inserters[t]? with
  | none => s
  | some inserter =>
    let (inserter, slots) := inserter.step s.slots
    { s with slots := slots, inserters := s.inserters.set t inserter }

def run (s : SharedTable K S) (schedule : List Nat) : SharedTable K S := schedule.foldl step s

/-- All inserts have returned. -/
def Finished (s : SharedTable K S) : Prop := ∀ inserter ∈ s.inserters, inserter.answer?.isSome

instance (s : SharedTable K S) : Decidable s.Finished := inferInstanceAs (Decidable (∀ _ ∈ _, _))

/-- What a look-up sees in the slots. -/
def settled (s : SharedTable K S) : Multimap K S := ⟨s.slots.map Slot.entry?, s.keying⟩

end SharedTable
end GridOps
