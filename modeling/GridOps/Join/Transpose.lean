import GridOps.Join.Probe

/-!
Splitting pairs of rows into one buffer: first all left rows, then all right rows.
-/
namespace GridOps

namespace Pair

variable {S : Type}

/-- The pair with its rows exchanged if `flip` is set. -/
def oriented (flip : Bool) (p : Pair S) : Pair S := if flip then ⟨p.second, p.first⟩ else p

/-- The thread of a pair writes its rows into the two halves. -/
def splitKernel (pairs : Array (Pair S)) (flip : Bool) : Kernel (Array S) := fun t => do
  if let some p := pairs[t.global]? then
    scatter t.global (p.oriented flip).first
    scatter (t.global + pairs.size) (p.oriented flip).second

/-- The rows of `pairs` in one buffer on the device.  With `flip`, the pairs hold the right row
first. -/
def split [Word S] (pairs : Array (Pair S)) (flip : Bool) (block : UInt32) :
    DeviceM DeviceError (Array S) := do
  DeviceM.allocate (2 * pairs.size) (Word.bytes S)
  DeviceM.keepingBytes (2 * pairs.size * Word.bytes S) do
    if pairs.isEmpty then return #[]
    else
      let l ← DeviceM.ofExcept (Launch.forLen (UInt64.ofNat pairs.size) block)
      let zeros := Array.replicate (2 * pairs.size) (Word.ofNat 0 : S)
      DeviceM.launch "pairs_to_decoupled" l (splitKernel pairs flip) zeros

end Pair
end GridOps
