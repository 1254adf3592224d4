import GridOps.Device.Dispatch

/-!
A data-parallel device: a memory budget and workers that run the threads of a kernel.

Device operations are computations over the device's state that keep the state when they fail, so
that memory taken before a failure stays taken until it is given back.  `withBytes` and
`keepingBytes` are the two ways to own memory.
-/
namespace GridOps

/-- A device.  `used` of its `capacity` bytes are taken.  `order` gives the order in which the
threads of the device's `n`-th launch take effect: one worker runs them as they are handed out. -/
structure Device where
  ordinal : UInt16
  workers : Nat
  morsel : UInt64
  capacity : Nat
  used : Nat
  launches : Nat
  order : Nat → List Thread → List Thread

/-- A computation on a device that may fail and keeps the device's state when it does. -/
abbrev DeviceM (ε α : Type) := EStateM ε Device α

/-- What one thread of a kernel does to the memory `σ` that all its threads share. -/
abbrev Kernel (σ : Type) := Thread → EStateM Fault σ Unit

structure Outcome (σ : Type) where
  memory : σ
  error? : Option DeviceError

namespace Device

/-- The largest number of bytes, and of items, that a 64-bit word holds. -/
def maxBytes : Nat := UInt64.size - 1

def defaultMorsel : UInt64 := 4

def build (ordinal : UInt16) (workers : Nat) (morsel : UInt64) (capacity : Nat) :
    Except DeviceError Device :=
  if morsel = 0 then .error .emptyMorsel
  else .ok ⟨ordinal, workers, morsel, capacity, 0, 0, fun _ threads => threads⟩

def available (d : Device) : Nat := d.capacity - d.used

def take (d : Device) (bytes : Nat) : Device := { d with used := d.used + bytes }

def release (d : Device) (bytes : Nat) : Device := { d with used := d.used - bytes }

def busyWorkers (d : Device) (grid : UInt32) : Nat := max (min d.workers grid.toNat) 1

def threads (d : Device) (l : Launch) : List Thread :=
  (Dispatcher.morsels l.grid d.morsel (d.busyWorkers l.grid)).flatMap fun m =>
    m.blocks.flatMap l.blockThreads

/-- Runs `kernel` for the threads of `l` on the shared memory `s`, one thread after the other, up
to the first fault.  What the threads did before it stays. -/
def run {σ : Type} (d : Device) (name : String) (l : Launch) (kernel : Kernel σ) (s : σ) :
    Outcome σ × Device :=
  if l.block = 0 ∨ l.grid = 0 then (⟨s, some (.emptyLaunch name)⟩, d)
  else
    let launched := { d with launches := d.launches + 1 }
    match (d.order d.launches (d.threads l)).forM kernel s with
    | .ok _ s => (⟨s, none⟩, launched)
    | .error fault s => (⟨s, some (.launchFailed name fault)⟩, launched)

end Device

namespace DeviceM

variable {ε α β σ : Type}

/-- Takes bytes of the device's budget. -/
def reserve (bytes : Nat) : DeviceM DeviceError Unit := fun d =>
  if d.available < bytes then .error (.outOfMemory bytes d.available) d
  else .ok () (d.take bytes)

/-- Bytes for `items` items of `size` bytes each. -/
def reserveItems (items size : Nat) : DeviceM DeviceError Unit := fun d =>
  if Device.maxBytes < items * size then .error (.sizeOverflow items size) d
  else reserve (items * size) d

/-- Runs `body` and then gives `bytes` back, also if `body` fails. -/
def withBytes (bytes : Nat) (body : DeviceM ε α) : DeviceM ε α := fun d =>
  match body d with
  | .ok a d => .ok a (d.release bytes)
  | .error e d => .error e (d.release bytes)

/-- Runs `body` and gives `bytes` back only if it fails: else its result owns them. -/
def keepingBytes (bytes : Nat) (body : DeviceM ε α) : DeviceM ε α := fun d =>
  match body d with
  | .ok a d => .ok a d
  | .error e d => .error e (d.release bytes)

def fail (e : ε) : DeviceM ε α := fun d => .error e d

def ofExcept (r : Except ε α) : DeviceM ε α := fun d =>
  match r with
  | .ok a => .ok a d
  | .error e => .error e d

/-- Sees the failures of `body` as causes of another type. -/
def mapError {ε' : Type} (f : ε → ε') (body : DeviceM ε α) : DeviceM ε' α := fun d =>
  match body d with
  | .ok a d => .ok a d
  | .error e d => .error (f e) d

/-- Runs `body` and returns its failure, if it fails, as a value. -/
def toExcept {ε' : Type} (body : DeviceM ε α) : DeviceM ε' (Except ε α) := fun d =>
  match body d with
  | .ok a d => .ok (.ok a) d
  | .error e d => .ok (.error e) d

def launch (name : String) (l : Launch) (kernel : Kernel σ) (s : σ) : DeviceM DeviceError σ :=
  fun d =>
    match d.run name l kernel s with
    | (⟨s, none⟩, d) => .ok s d
    | (⟨_, some e⟩, d) => .error e d

def counterBytes : Nat := 8

def withCounter (body : DeviceM DeviceError α) : DeviceM DeviceError α := do
  reserveItems 1 counterBytes
  withBytes counterBytes body

end DeviceM
end GridOps
