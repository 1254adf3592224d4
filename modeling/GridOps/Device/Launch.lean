import GridOps.Size

/-!
The shape of a kernel launch: a grid of blocks, each of the same number of threads.
-/
namespace GridOps

structure Launch where
  grid : UInt32
  block : UInt32
deriving DecidableEq, Repr

structure Thread where
  launch : Launch
  blockIdx : UInt32
  lane : UInt32
deriving DecidableEq, Repr

namespace Launch

def threads (l : Launch) : Nat := l.grid.toNat * l.block.toNat

/-- One thread per item, and at least one block.  The blocks are counted with sizes, so a length
within a block of the top of their range stops it. -/
def forLen (len : UInt64) (block : UInt32) : Except DeviceError Launch :=
  if block = 0 then .error .emptyBlock
  else
    match Size.countParts len.toNat block.toNat with
    | .error fault => .error (.stopped fault)
    | .ok blocks =>
      if max blocks 1 < UInt32.size then .ok ⟨UInt32.ofNat (max blocks 1), block⟩
      else .error (.gridTooLarge blocks)

def blockThreads (l : Launch) (b : Nat) : List Thread :=
  (List.range l.block.toNat).map fun t => ⟨l, UInt32.ofNat b, UInt32.ofNat t⟩

end Launch

namespace Thread

/-- The thread's number in the whole grid. -/
def global (t : Thread) : Nat := t.blockIdx.toNat * t.launch.block.toNat + t.lane.toNat

end Thread
end GridOps
