import GridOps.Device.Memory

/-!
A kernel that records which threads of a launch ran, for looking at a device's schedule.

Every thread counts itself, stops if it is the chosen faulty thread, writes its number to the slot
chosen for it, and signs the log.
-/
namespace GridOps

/-- What the tracing kernel is to do: the thread that faults, and the slot that each of the first
threads writes its number to. -/
structure TracePlan where
  faultAt? : Option Nat
  fault : Fault
  slots : Array Nat

structure Trace where
  ran : UInt64
  log : Array UInt64
  out : Array UInt64

namespace Trace

/-- What thread `t` adds to its log entry: block, lane and grid size in decimal groups. -/
def signature (t : Thread) : UInt64 :=
  UInt64.ofNat (t.blockIdx.toNat * 1000000 + t.lane.toNat * 1000 + t.launch.threads)

def kernel (plan : TracePlan) : Kernel Trace := fun t s =>
  let g := t.global
  let s := { s with ran := s.ran + 1 }
  if plan.faultAt? = some g then .error plan.fault s
  else
    let sign (s : Trace) : Trace := { s with log := s.log.modify g (· + signature t) }
    match plan.slots[g]? with
    | none => .ok () (sign s)
    | some slot =>
      match scatter slot (UInt64.ofNat (g + 1)) s.out with
      | .ok _ out => .ok () (sign { s with out := out })
      | .error fault out => .error fault { s with out := out }

def collect (name : String) (l : Launch) (plan : TracePlan) (outLen : Nat) :
    DeviceM DeviceError (Outcome Trace) :=
  DeviceM.withCounter do
    DeviceM.allocate outLen (Word.bytes UInt64)
    DeviceM.withBytes (outLen * Word.bytes UInt64) fun d =>
      let start : Trace := ⟨0, Array.replicate l.threads 0, Array.replicate outLen 0⟩
      let (outcome, d) := d.run name l (kernel plan) start
      .ok outcome d

end Trace
end GridOps
