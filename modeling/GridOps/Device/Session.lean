import GridOps.Device.Memory

/-!
A session on a device: commands that take memory, look at it, change it and give it back.

The items that a session allocated are numbered from zero.  A failed command changes nothing, and
neither does dropping an item that has been given back.
-/
namespace GridOps
namespace Session

/-- The items of a buffer: numbers of so many bytes. -/
structure ItemType where
  bytes : Nat
deriving DecidableEq, Repr

namespace ItemType

def u8 : ItemType := ⟨1⟩

def u32 : ItemType := ⟨4⟩

def u64 : ItemType := ⟨8⟩

def wrap (t : ItemType) (n : Nat) : Nat := n % Nat.pow 256 t.bytes

end ItemType

inductive Item
  | reservation (bytes : Nat)
  | counter (count : UInt64)
  | buffer (type : ItemType) (values : Array Nat)
deriving DecidableEq, Repr

def Item.bytes : Item → Nat
  | .reservation bytes => bytes
  | .counter _ => DeviceM.counterBytes
  | .buffer type values => values.size * type.bytes

inductive Command
  | zeroed (type : ItemType) (len : Nat)
  | filled (type : ItemType) (len value : Nat)
  | fromSlice (type : ItemType) (values : Array Nat)
  | fromFn (type : ItemType) (len : Nat) (f : Nat → Nat)
  | reserve (bytes : Nat)
  | reserveItems (type : ItemType) (len : Nat)
  | counter
  | info
  | drop (id : Nat)
  | intoHost (id : Nat)
  | read (id : Nat)
  | set (id index value : Nat)
  | kernelWrite (id index value : Nat)
  | add (id : Nat) (value : UInt64)
  | increment (id : Nat)
  | reset (id : Nat)
  | load (id : Nat)

def Command.squares (type : ItemType) (len : Nat) : Command := .fromFn type len fun i => i * i

inductive Answer
  | allocated (id bytes : Nat)
  | info (ordinal : UInt16) (workers capacity available : Nat)
  | dropped
  | values (values : Array Nat)
  | contents (values : Array Nat)
  | set
  | written
  | count (count : UInt64)
  | reset
  | failed (error : DeviceError)
  /-- The command names no live item of the sort it works on, or no element of it. -/
  | refused
deriving DecidableEq, Repr

structure State where
  items : Array (Option Item)
  device : Device

namespace State

def start (device : Device) : State := ⟨#[], device⟩

def liveBytes (s : State) : Nat :=
  s.items.toList.foldl (fun sum item? => sum + (item?.map Item.bytes).getD 0) 0

def item? (s : State) (id : Nat) : Option Item := s.items[id]?.join

/-- Takes memory and, if the device gives it, adds the item that holds it. -/
def allocate (s : State) (taking : DeviceM DeviceError Unit) (item : Unit → Item) :
    Answer × State :=
  match taking s.device with
  | .ok _ device =>
    let item := item ()
    (.allocated s.items.size item.bytes, ⟨s.items.push (some item), device⟩)
  | .error e device => (.failed e, { s with device := device })

def free (s : State) (id : Nat) (item : Item) : State :=
  { s with
    items := s.items.setIfInBounds id none
    device := s.device.release item.bytes }

def put (s : State) (id : Nat) (item : Item) : State :=
  { s with items := s.items.setIfInBounds id (some item) }

def writeKernel (index value : Nat) : Kernel (Array Nat) := fun _ => scatter index value

/-- Replaces the count of a counter and answers the count before. -/
def updateCounter (s : State) (id : Nat) (f : UInt64 → UInt64) : Answer × State :=
  match s.item? id with
  | some (.counter count) => (.count count, s.put id (.counter (f count)))
  | _ => (.refused, s)

def step (s : State) : Command → Answer × State
  | .zeroed type len =>
    s.allocate (DeviceM.allocate len type.bytes) fun _ => .buffer type (Array.replicate len 0)
  | .filled type len value =>
    s.allocate (DeviceM.allocate len type.bytes) fun _ =>
      .buffer type (Array.replicate len (type.wrap value))
  | .fromSlice type values =>
    s.allocate (DeviceM.allocate values.size type.bytes) fun _ =>
      .buffer type (values.map type.wrap)
  | .fromFn type len f =>
    s.allocate (DeviceM.allocate len type.bytes) fun _ =>
      .buffer type ((Array.range len).map fun i => type.wrap (f i))
  | .reserve bytes => s.allocate (DeviceM.reserve bytes) fun _ => .reservation bytes
  | .reserveItems type len =>
    s.allocate (DeviceM.reserveItems len type.bytes) fun _ => .reservation (len * type.bytes)
  | .counter =>
    s.allocate (DeviceM.reserveItems 1 DeviceM.counterBytes) fun _ => .counter 0
  | .info =>
    let d := s.device
    (.info d.ordinal d.workers d.capacity d.available, s)
  | .drop id =>
    match s.item? id with
    | some item => (.dropped, s.free id item)
    | none => (.dropped, s)
  | .intoHost id =>
    match s.item? id with
    | some (.buffer type values) => (.values values, s.free id (.buffer type values))
    | _ => (.refused, s)
  | .read id =>
    match s.item? id with
    | some (.buffer _ values) => (.contents values, s)
    | _ => (.refused, s)
  | .set id index value =>
    match s.item? id with
    | some (.buffer type values) =>
      if index < values.size then
        (.set, s.put id (.buffer type (values.setIfInBounds index (type.wrap value))))
      else (.refused, s)
    | _ => (.refused, s)
  | .kernelWrite id index value =>
    match s.item? id with
    | some (.buffer type values) =>
      match s.device.run "kernel_write" ⟨1, 1⟩ (writeKernel index (type.wrap value)) values with
      | (⟨values, none⟩, device) =>
        (.written, { s with device := device }.put id (.buffer type values))
      | (⟨_, some e⟩, device) => (.failed e, { s with device := device })
    | _ => (.refused, s)
  | .add id value => s.updateCounter id (· + value)
  | .increment id => s.updateCounter id (· + 1)
  | .reset id =>
    match s.item? id with
    | some (.counter _) => (.reset, s.put id (.counter 0))
    | _ => (.refused, s)
  | .load id => s.updateCounter id fun count => count

def close (s : State) : State :=
  ⟨#[], s.device.release s.liveBytes⟩

end State
end Session
end GridOps
