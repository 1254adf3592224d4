import GridOps.Device.Basic
import GridOps.Word

/-!
Buffers in device memory.

A buffer is an array on the host together with the bytes taken for it on the device.  The kernels
of a launch write to it through `scatter`, which refuses an index outside the buffer.
-/
namespace GridOps

def maxHostBytes : Nat := 9223372036854775807

/-- Puts `x` at index `i` of a buffer shared by the threads of a kernel. -/
def scatter {α : Type} (i : Nat) (x : α) : EStateM Fault (Array α) Unit := fun a =>
  if h : i < a.size then .ok () (a.set i x h) else .error (.writeOutOfBounds i a.size) a

def scatterFrom {α : Type} : List α → (i : Nat) → EStateM Fault (Array α) Unit
  | [], _ => pure ()
  | x :: rest, i => do
    scatter i x
    scatterFrom rest (i + 1)

/-- Does `m` to the second part of a kernel's memory. -/
def onSecond {σ τ : Type} (m : EStateM Fault τ Unit) : EStateM Fault (σ × τ) Unit := fun (s, t) =>
  match m t with
  | .ok _ t => .ok () (s, t)
  | .error fault t => .error fault (s, t)

namespace DeviceM

/-- Takes the bytes of a buffer of `items` items of `size` bytes.  The device's budget is asked
first, then the host; if the host cannot hold the buffer, the budget is given back. -/
def allocate (items size : Nat) : DeviceM DeviceError Unit := fun d =>
  match reserveItems items size d with
  | .error e d => .error e d
  | .ok _ taken =>
    if maxHostBytes < items * size then .error (.outOfMemory (items * size) 0) d
    else .ok () taken

end DeviceM
end GridOps
