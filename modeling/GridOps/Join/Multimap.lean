import GridOps.Device.Memory
import GridOps.Join.Error
import GridOps.Join.Keying

/-!
A multimap from keys to rows with open addressing and linear probing.

The slots are walked cyclically from a key's home slot.  An insert takes the first free slot of the
walk; a look-up collects the rows under equal keys up to the first free slot.
-/
namespace GridOps

/-- A fixed number of slots, each free or taken by a key and a row. -/
structure Multimap (K S : Type) where
  slots : Array (Option (K × S))
  keying : Keying K

namespace Multimap

variable {K S : Type} [JoinKey K] [Word S]

/-- The number of slots for `rows` entries so that `percent` of them are taken, and at least
one. -/
def capacityFor (rows percent : Nat) : Except JoinError Nat :=
  if percent = 0 ∨ 100 < percent then .error (.occupancy percent)
  else if Device.maxBytes < rows * 100 then .error .capacityOverflow
  else .ok (max (rows * 100 / percent) 1)

/-- The bytes of a slot: a key and a row, both aligned to the wider of the two. -/
def slotBytes (K S : Type) [JoinKey K] [Word S] : Nat :=
  2 * max (JoinKey.type K).bytes (Word.bytes S)

def free (capacity : Nat) (keying : Keying K) : Multimap K S :=
  ⟨Array.replicate capacity none, keying⟩

def capacity (m : Multimap K S) : Nat := m.slots.size

/-- The slot at which the walk of a key starts. -/
def home (m : Multimap K S) (key : K) : Nat := (m.keying.hash key).toNat % m.capacity

/-- The slot after `i` in the walk. -/
def after (m : Multimap K S) (i : Nat) : Nat := if i + 1 = m.capacity then 0 else i + 1

/-- The first free slot among the next `n` of the walk. -/
def firstFree? (m : Multimap K S) : (n i : Nat) → Option Nat
  | 0, _ => none
  | n + 1, i =>
    match m.slots[i]? with
    | some none => some i
    | _ => m.firstFree? n (m.after i)

/-- Adds an entry and tells whether a slot was free for it.  It is not for the reserved key: a slot
with that key looks free. -/
def insert (m : Multimap K S) (key : K) (row : S) : Multimap K S × Bool :=
  match m.firstFree? m.capacity (m.home key) with
  | none => (m, false)
  | some i =>
    if key = JoinKey.reserved K then (m, true)
    else ({ m with slots := m.slots.setIfInBounds i (some (key, row)) }, true)

/-- `insert` for any key; the reserved one stops it. -/
def tryInsert (m : Multimap K S) (key : K) (row : S) : Except Fault (Multimap K S × Bool) :=
  if key = JoinKey.reserved K then .error .reservedKey else .ok (m.insert key row)

/-- The rows under keys equal to `key` in the next `n` slots of the walk, up to a free one. -/
def rowsFrom (m : Multimap K S) (key : K) : (n i : Nat) → List S
  | 0, _ => []
  | n + 1, i =>
    match m.slots[i]? with
    | some (some (k, row)) =>
      let rest := m.rowsFrom key n (m.after i)
      if m.keying.equal k key then row :: rest else rest
    | _ => []

/-- The rows under keys equal to `key`, in the order of the walk. -/
def find (m : Multimap K S) (key : K) : List S := m.rowsFrom key m.capacity (m.home key)

def entries (m : Multimap K S) : List (K × S) := m.slots.toList.filterMap id

def len (m : Multimap K S) : Nat := m.entries.length

/-- The entries as text, in the order of the slots. -/
def render (m : Multimap K S) : String :=
  "[" ++ ", ".intercalate (m.entries.map fun (k, row) =>
    s!"{JoinKey.toInt k}: {Word.toNat row}") ++ "]"

def summary (m : Multimap K S) : String :=
  "ConcurrentMultimap \x7b capacity: " ++ toString m.capacity ++ " \x7d"

/-- Takes the memory of a multimap of `capacity` slots on the device and makes one. -/
def allocate (capacity : Nat) (keying : Keying K) : DeviceM JoinError (Multimap K S) := do
  if capacity = 0 then DeviceM.fail .emptyTable
  else
    let bytes := capacity * slotBytes K S
    DeviceM.mapError .device (DeviceM.reserveItems capacity (slotBytes K S))
    DeviceM.keepingBytes bytes fun d =>
      if maxHostBytes < bytes then .error (.device (.outOfMemory bytes d.available)) d
      else .ok (free capacity keying) d

/-- Runs `body` with a new multimap, and gives the multimap's memory back at the end. -/
def withTable {α : Type} (capacity : Nat) (keying : Keying K)
    (body : Multimap K S → DeviceM JoinError α) : DeviceM JoinError α := do
  let m ← allocate capacity keying
  DeviceM.withBytes (capacity * slotBytes K S) (body m)

end Multimap
end GridOps
