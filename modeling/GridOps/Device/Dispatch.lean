import GridOps.Device.Launch

/-!
Handing out the blocks of a grid to the workers of a device.

Workers take ranges of blocks, called morsels, from one shared 64-bit offset until they are told
that none is left.  Which worker gets a morsel is open; the sequence of morsels is not, because
every request moves the offset by the same amount.
-/
namespace GridOps

/-- The shared state of the workers of one launch. -/
structure Dispatcher where
  offset : UInt64
  grid : UInt32
  morsel : UInt64
deriving DecidableEq, Repr

structure Morsel where
  first : Nat
  count : Nat
deriving DecidableEq, Repr

namespace Morsel

def blocks (m : Morsel) : List Nat := List.range' m.first m.count

end Morsel

namespace Dispatcher

/-- A morsel has at least one block. -/
def start (grid : UInt32) (morsel : UInt64) : Dispatcher := ⟨0, grid, max morsel 1⟩

/-- One request of a worker: a morsel, or none if the offset is past the grid.  The offset moves
either way, and wraps. -/
def next (d : Dispatcher) : Option Morsel × Dispatcher :=
  let moved := { d with offset := d.offset + d.morsel }
  if d.offset < d.grid.toUInt64 then
    (some ⟨d.offset.toNat, min (d.grid.toNat - d.offset.toNat) d.morsel.toNat⟩, moved)
  else (none, moved)

/-- The morsels handed out until `workers` requests have been refused, in the order of the
requests, for at most `fuel` requests. -/
def drain : (fuel workers : Nat) → Dispatcher → List Morsel
  | 0, _, _ => []
  | _ + 1, 0, _ => []
  | fuel + 1, workers + 1, d =>
    match d.next with
    | (some m, d) => m :: drain fuel (workers + 1) d
    | (none, d) => drain fuel workers d

/-- All morsels of a launch on `workers` workers.  Between two refusals at most one morsel per
block is handed out, which bounds the number of requests. -/
def morsels (grid : UInt32) (morsel : UInt64) (workers : Nat) : List Morsel :=
  drain ((workers + 1) * (grid.toNat + 1)) workers (start grid morsel)

end Dispatcher
end GridOps
