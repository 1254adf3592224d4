import GridOps.Device.Session
import GridOps.Proofs.Device.Schedule
import Mathlib.Algebra.GroupWithZero.Nat

/-!
The memory and the contents of a session on a device.

`Does` says what a command can do to a session, case by case.  From it: the memory used is that of
the live items (`Accounted`), and a live buffer holds what was last written to it, as the commands
and their answers tell (`Log.Truthful`).  Both are kept by every command, so they hold after every
history of commands.
-/

namespace GridOps

/-! ## Taking memory -/

namespace DeviceM

/-- `taking` takes `bytes` of a device that has them, if they are within `limit`, and else it fails
and changes nothing. -/
structure Takes (taking : DeviceM DeviceError Unit) (bytes limit : Nat) : Prop where
  ok : ∀ {d}, bytes ≤ d.available → bytes ≤ limit → taking d = .ok () (d.take bytes)
  error : ∀ {d}, d.capacity ≤ Device.maxBytes → d.available < bytes ∨ limit < bytes →
    ∃ e, taking d = .error e d

theorem reserve_takes (bytes : Nat) : Takes (reserve bytes) bytes Device.maxBytes where
  ok := fun hroom _ => if_neg (Nat.not_lt.mpr hroom)
  error := by
    intro d hcapacity h
    have hroom : d.available < bytes := by
      have hle : d.available ≤ d.capacity := Nat.sub_le _ _
      omega
    exact ⟨_, if_pos hroom⟩

theorem reserveItems_takes (items size : Nat) :
    Takes (reserveItems items size) (items * size) Device.maxBytes where
  ok := fun hroom hbytes =>
    (if_neg (Nat.not_lt.mpr hbytes)).trans ((reserve_takes _).ok hroom hbytes)
  error := by
    intro d hcapacity h
    by_cases hbytes : Device.maxBytes < items * size
    · exact ⟨_, if_pos hbytes⟩
    · obtain ⟨e, he⟩ := (reserve_takes _).error hcapacity h
      exact ⟨e, (if_neg hbytes).trans he⟩

theorem allocate_takes (items size : Nat) :
    Takes (allocate items size) (items * size) maxHostBytes where
  ok := by
    intro d hroom hhost
    have hbytes : maxHostBytes ≤ Device.maxBytes := by decide
    unfold allocate
    rw [(reserveItems_takes items size).ok hroom (Nat.le_trans hhost hbytes)]
    exact if_neg (Nat.not_lt.mpr hhost)
  error := by
    intro d hcapacity h
    unfold allocate
    by_cases hfits : items * size ≤ d.available ∧ items * size ≤ Device.maxBytes
    · rw [(reserveItems_takes items size).ok hfits.1 hfits.2]
      exact ⟨_, if_pos (by omega)⟩
    · obtain ⟨e, he⟩ := (reserveItems_takes items size).error hcapacity (by omega)
      rw [he]
      exact ⟨e, rfl⟩

end DeviceM

/-! ## A launch of one thread -/

/-- The only thread of a grid of one block of one thread. -/
def Thread.single : Thread := ⟨⟨1, 1⟩, 0, 0⟩

theorem Device.run_single {σ : Type} {d : Device}
    (horder : ∀ n threads, d.order n threads = threads) (name : String)
    (kernel : Kernel σ) (s : σ) :
    d.run name ⟨1, 1⟩ kernel s =
      match kernel .single s with
      | .ok _ s => (⟨s, none⟩, { d with launches := d.launches + 1 })
      | .error fault s =>
        (⟨s, some (.launchFailed name fault)⟩, { d with launches := d.launches + 1 }) := by
  have hbusy : d.busyWorkers 1 = 1 := by
    show max (min d.workers 1) 1 = 1
    omega
  have hthreads : d.order d.launches (d.threads ⟨1, 1⟩) = [.single] := by
    rw [horder, threads_of_busyWorkers hbusy]
    rfl
  unfold run
  rw [if_neg (by decide), hthreads]
  change (match EStateM.bind (kernel .single) (fun _ => pure ()) s with
    | .ok _ s => _
    | .error fault s => _) = _
  unfold EStateM.bind
  cases kernel .single s <;> rfl

namespace Session

/-! ## What commands are about -/

def Item.isBuffer : Item → Bool
  | .buffer .. => true
  | _ => false

/-- The item that a command allocates. -/
def Command.allocates? : Command → Option Item
  | .zeroed type len => some (.buffer type (Array.replicate len 0))
  | .filled type len value => some (.buffer type (Array.replicate len (type.wrap value)))
  | .fromSlice type values => some (.buffer type (values.map type.wrap))
  | .fromFn type len f => some (.buffer type ((Array.range len).map fun i => type.wrap (f i)))
  | .reserve bytes => some (.reservation bytes)
  | .reserveItems type len => some (.reservation (len * type.bytes))
  | .counter => some (.counter 0)
  | _ => none

/-- The item that a command works on. -/
def Command.target? : Command → Option Nat
  | .drop id | .intoHost id | .read id | .set id _ _ | .kernelWrite id _ _ | .add id _
  | .increment id | .reset id | .load id => some id
  | _ => none

/-- The item, the index and the value of a write, from the host or from a kernel. -/
def Command.write? : Command → Option (Nat × Nat × Nat)
  | .set id index value | .kernelWrite id index value => some (id, index, value)
  | _ => none

/-- The value with which an allocation starts element `i`. -/
def Command.initial? (i : Nat) : Command → Option Nat
  | .zeroed _ len => if i < len then some 0 else none
  | .filled _ len value => if i < len then some value else none
  | .fromSlice _ values => values[i]?
  | .fromFn _ len f => if i < len then some (f i) else none
  | _ => none

/-- The command gives the item back: a drop does so with any item, a move to the host with a
buffer. -/
def Command.GivesBack (id : Nat) (item : Item) : Command → Prop
  | .drop target => target = id
  | .intoHost target => target = id ∧ item.isBuffer
  | _ => False

/-- The answer says that the command did not do what it is for. -/
def Answer.Declines (a : Answer) : Prop := (∃ e, a = .failed e) ∨ a = .refused

namespace Command

variable {c : Command} {id : Nat} {item : Item}

theorem target?_of_allocates (h : c.allocates? = some item) : c.target? = none := by
  cases c <;> cases h <;> rfl

theorem target?_of_write {index value : Nat} (h : c.write? = some (id, index, value)) :
    c.target? = some id := by
  cases c <;> cases h <;> rfl

theorem target?_of_givesBack (h : c.GivesBack id item) : c.target? = some id := by
  cases c with
  | drop target => exact congrArg some h
  | intoHost target => exact congrArg some h.1
  | _ => cases h

theorem not_givesBack_of_write {w : Nat × Nat × Nat} (h : c.write? = some w) :
    ¬c.GivesBack id item := by
  cases c <;> cases h <;> exact not_false

end Command

theorem Answer.not_declines {a : Answer} (hfailed : ∀ e, a ≠ .failed e) (hrefused : a ≠ .refused) :
    ¬a.Declines := by
  rintro (⟨e, h⟩ | h)
  · exact hfailed e h
  · exact hrefused h

/-- The bytes of an item are refused: the device does not have them, or a word does not hold their
number, or the host cannot hold the buffer. -/
def Refuses (d : Device) (item : Item) : Prop :=
  d.available < item.bytes ∨ Device.maxBytes < item.bytes ∨
    item.isBuffer ∧ maxHostBytes < item.bytes

/-- The most bytes that an item can have, whatever the device has. -/
def Item.limit : Item → Nat
  | .buffer .. => maxHostBytes
  | _ => Device.maxBytes

theorem refuses_iff (d : Device) (item : Item) :
    Refuses d item ↔ d.available < item.bytes ∨ item.limit < item.bytes := by
  have hhost : maxHostBytes ≤ Device.maxBytes := by decide
  unfold Refuses
  cases item with
  | buffer type values =>
    simp only [Item.isBuffer, true_and, Item.limit]
    omega
  | reservation bytes => simp [Item.isBuffer, Item.limit]
  | counter n => simp [Item.isBuffer, Item.limit]

namespace State

variable {s s' : State} {c : Command} {a : Answer}

/-! ## What a command does -/

/-- What a command can do: its answer, and the state after it. -/
inductive Does (s : State) : Command → Answer → State → Prop
  | allocates {c : Command} {item : Item} (hc : c.allocates? = some item)
    (hroom : ¬Refuses s.device item) :
    Does s c (.allocated s.items.size item.bytes)
      ⟨s.items.push (some item), s.device.take item.bytes⟩
  | fails {c : Command} {item : Item} (hc : c.allocates? = some item)
    (hroom : Refuses s.device item) (e : DeviceError) : Does s c (.failed e) s
  | drops {id : Nat} {item : Item} (hid : s.item? id = some item) :
    Does s (.drop id) .dropped (s.free id item)
  | moves {id : Nat} {type : ItemType} {values : Array Nat}
    (hid : s.item? id = some (.buffer type values)) :
    Does s (.intoHost id) (.values values) (s.free id (.buffer type values))
  | writes {c : Command} {a : Answer} {id index value : Nat} {type : ItemType}
    {values : Array Nat} {d : Device} (hc : c.write? = some (id, index, value))
    (hid : s.item? id = some (.buffer type values)) (hindex : index < values.size)
    (ha : a = .set ∨ a = .written) (hd : s.device.Became d 0) :
    Does s c a
      ({ s with device := d }.put id (.buffer type (values.setIfInBounds index (type.wrap value))))
  | misses {c : Command} {a : Answer} {id index value : Nat} {d : Device}
    (hc : c.write? = some (id, index, value))
    (hid : ∀ type values, s.item? id = some (.buffer type values) → values.size ≤ index)
    (ha : a.Declines) (hd : s.device.Became d 0) : Does s c a { s with device := d }
  | counts {c : Command} {a : Answer} {id : Nat} {n : UInt64} (m : UInt64)
    (hc : c.target? = some id) (hwrite : c.write? = none)
    (hkeeps : ∀ id item, ¬c.GivesBack id item) (hid : s.item? id = some (.counter n))
    (ha : (∃ n, a = .count n) ∨ a = .reset) : Does s c a (s.put id (.counter m))
  | looks {c : Command} {a : Answer} (hc : c.allocates? = none) (hwrite : c.write? = none)
    (hkeeps : ∀ id item, s.item? id = some item → ¬c.GivesBack id item)
    (ha : ∀ id bytes, a ≠ .allocated id bytes) : Does s c a s

theorem does_allocate {taking : DeviceM DeviceError Unit} {item : Unit → Item}
    (hc : c.allocates? = some (item ())) (hcapacity : s.device.capacity ≤ Device.maxBytes)
    (htaking : DeviceM.Takes taking (item ()).bytes (item ()).limit) :
    Does s c (s.allocate taking item).1 (s.allocate taking item).2 := by
  unfold allocate
  by_cases hroom : Refuses s.device (item ())
  · obtain ⟨e, he⟩ := htaking.error hcapacity ((refuses_iff _ _).mp hroom)
    rw [he]
    exact .fails hc hroom e
  · have hfits := mt (refuses_iff _ _).mpr hroom
    rw [htaking.ok (by omega) (by omega)]
    exact .allocates hc hroom

theorem does_updateCounter {id : Nat} {f : UInt64 → UInt64} (hc : c.target? = some id)
    (hallocates : c.allocates? = none) (hwrite : c.write? = none)
    (hkeeps : ∀ id item, ¬c.GivesBack id item) :
    Does s c (s.updateCounter id f).1 (s.updateCounter id f).2 := by
  unfold updateCounter
  split
  · rename_i n hid
    exact .counts _ hc hwrite hkeeps hid (.inl ⟨n, rfl⟩)
  · exact .looks hallocates hwrite (fun id item _ => hkeeps id item) nofun

theorem run_writeKernel {d : Device} (horder : ∀ n threads, d.order n threads = threads)
    (index value : Nat) (values : Array Nat) :
    d.run "kernel_write" ⟨1, 1⟩ (writeKernel index value) values =
      (if index < values.size then ⟨values.setIfInBounds index value, none⟩
        else ⟨values, some (.launchFailed "kernel_write" (.writeOutOfBounds index values.size))⟩,
        { d with launches := d.launches + 1 }) := by
  rw [Device.run_single horder]
  unfold writeKernel scatter
  by_cases hindex : index < values.size
  · rw [dif_pos hindex, if_pos hindex, Array.setIfInBounds, dif_pos hindex]
  · rw [dif_neg hindex, if_neg hindex]

/-- Every command of a session whose device runs threads as they are handed out. -/
theorem step_does (horder : ∀ n threads, s.device.order n threads = threads)
    (hcapacity : s.device.capacity ≤ Device.maxBytes) (c : Command) :
    Does s c (s.step c).1 (s.step c).2 := by
  cases c with
  | zeroed type len =>
    refine does_allocate rfl hcapacity ?_
    simpa [Item.bytes, Item.limit] using DeviceM.allocate_takes len type.bytes
  | filled type len value =>
    refine does_allocate rfl hcapacity ?_
    simpa [Item.bytes, Item.limit] using DeviceM.allocate_takes len type.bytes
  | fromSlice type values =>
    refine does_allocate rfl hcapacity ?_
    simpa [Item.bytes, Item.limit] using DeviceM.allocate_takes values.size type.bytes
  | fromFn type len f =>
    refine does_allocate rfl hcapacity ?_
    simpa [Item.bytes, Item.limit] using DeviceM.allocate_takes len type.bytes
  | reserve bytes => exact does_allocate rfl hcapacity (DeviceM.reserve_takes bytes)
  | reserveItems type len =>
    exact does_allocate rfl hcapacity (DeviceM.reserveItems_takes len type.bytes)
  | counter =>
    exact does_allocate rfl hcapacity (DeviceM.reserveItems_takes 1 DeviceM.counterBytes)
  | info => exact .looks rfl rfl (fun _ _ _ => not_false) nofun
  | drop id =>
    simp only [step]
    split
    · rename_i item hid
      exact .drops hid
    · rename_i hid
      refine .looks rfl rfl (fun id' item hitem heq => ?_) nofun
      rw [← heq, hid] at hitem
      cases hitem
  | intoHost id =>
    simp only [step]
    split
    · rename_i type values hid
      exact .moves hid
    · rename_i hid
      refine .looks rfl rfl (fun id' item hitem heq => ?_) nofun
      obtain ⟨rfl, hbuffer⟩ := heq
      cases item with
      | buffer type values => exact hid type values hitem
      | _ => cases hbuffer
  | read id =>
    simp only [step]
    split <;> exact .looks rfl rfl (fun _ _ _ => not_false) nofun
  | set id index value =>
    simp only [step]
    split
    · rename_i type values hid
      split
      · rename_i hindex
        exact .writes rfl hid hindex (.inl rfl) (.refl _)
      · rename_i hindex
        refine .misses rfl (fun type' values' h => ?_) (.inr rfl) (.refl _)
        cases hid.symm.trans h
        omega
    · rename_i hid
      exact .misses rfl (fun type values h => absurd h (hid type values)) (.inr rfl) (.refl _)
  | kernelWrite id index value =>
    simp only [step]
    split
    · rename_i type values hid
      rw [run_writeKernel horder]
      by_cases hindex : index < values.size
      · rw [if_pos hindex]
        exact .writes rfl hid hindex (.inr rfl) (.launched _ _)
      · rw [if_neg hindex]
        refine .misses rfl (fun type' values' h => ?_) (.inl ⟨_, rfl⟩) (.launched _ _)
        cases hid.symm.trans h
        omega
    · rename_i hid
      exact .misses rfl (fun type values h => absurd h (hid type values)) (.inr rfl) (.refl _)
  | add id value => exact does_updateCounter rfl rfl rfl fun _ _ => not_false
  | increment id => exact does_updateCounter rfl rfl rfl fun _ _ => not_false
  | reset id =>
    simp only [step]
    split
    · rename_i n hid
      exact .counts _ rfl rfl (fun _ _ => not_false) hid (.inr rfl)
    · exact .looks rfl rfl (fun _ _ _ => not_false) nofun
  | load id => exact does_updateCounter rfl rfl rfl fun _ _ => not_false

/-! ## The items after a change -/

theorem lt_of_item? {id : Nat} {item : Item} (hid : s.item? id = some item) :
    id < s.items.size := by
  obtain ⟨hlt, -⟩ := Array.getElem?_eq_some_iff.mp (Option.join_eq_some_iff.mp hid)
  exact hlt

theorem item?_push (s : State) (item : Item) (d : Device) (id : Nat) :
    (⟨s.items.push (some item), d⟩ : State).item? id =
      if id = s.items.size then some item else s.item? id := by
  unfold item?
  rw [Array.getElem?_push]
  split <;> rfl

theorem item?_set {id : Nat} (hid : id < s.items.size) (item? : Option Item) (d : Device)
    (id' : Nat) :
    (⟨s.items.setIfInBounds id item?, d⟩ : State).item? id' =
      if id' = id then item? else s.item? id' := by
  unfold State.item?
  rw [Array.getElem?_setIfInBounds]
  by_cases heq : id' = id
  · subst heq
    rw [if_pos rfl, if_pos hid, if_pos rfl]
    rfl
  · rw [if_neg (Ne.symm heq), if_neg heq]

/-! ## Live bytes -/

def heldBytes (item? : Option Item) : Nat := (item?.map Item.bytes).getD 0

theorem foldl_bytes {α : Type} (bytes : α → Nat) (items : List α) (sum : Nat) :
    items.foldl (fun sum item => sum + bytes item) sum = sum + (items.map bytes).sum := by
  induction items generalizing sum with
  | nil => rfl
  | cons item rest ih => rw [List.foldl_cons, ih, List.map_cons, List.sum_cons, Nat.add_assoc]

theorem liveBytes_eq (s : State) : s.liveBytes = (s.items.toList.map heldBytes).sum :=
  (foldl_bytes heldBytes s.items.toList 0).trans (Nat.zero_add _)

theorem liveBytes_push (s : State) (item : Item) (d : Device) :
    (⟨s.items.push (some item), d⟩ : State).liveBytes = s.liveBytes + item.bytes := by
  rw [liveBytes_eq, liveBytes_eq, Array.toList_push, List.map_append, List.sum_append]
  rfl

theorem sum_set {l : List Nat} {i x : Nat} (y : Nat) (h : l[i]? = some x) :
    (l.set i y).sum + x = l.sum + y := by
  induction l generalizing i with
  | nil => cases h
  | cons first rest ih =>
    cases i with
    | zero =>
      cases h
      rw [List.set_cons_zero, List.sum_cons, List.sum_cons]
      omega
    | succ i =>
      have hrest := ih h
      rw [List.set_cons_succ, List.sum_cons, List.sum_cons]
      omega

theorem liveBytes_set {id : Nat} {item : Item} (hid : s.item? id = some item)
    (item? : Option Item) (d : Device) :
    (⟨s.items.setIfInBounds id item?, d⟩ : State).liveBytes + item.bytes =
      s.liveBytes + heldBytes item? := by
  rw [liveBytes_eq, liveBytes_eq, Array.toList_setIfInBounds, List.map_set]
  refine sum_set _ ?_
  rw [List.getElem?_map, Array.getElem?_toList, Option.join_eq_some_iff.mp hid]
  rfl

/-! ## The invariant of a session -/

/-- The memory of the device is that of the live items.  What is left is the rest of the capacity,
also when the difference is taken of 64-bit words. -/
structure Accounted (capacity : UInt64) (s : State) : Prop where
  used : s.device.used = s.liveBytes
  within : s.liveBytes ≤ capacity.toNat
  available : s.device.available = capacity.toNat - s.liveBytes
  difference : (capacity - UInt64.ofNat s.device.used).toNat = s.device.available

/-- What a session on a device of some capacity keeps. -/
structure Sound (capacity : UInt64) (s : State) : Prop where
  used : s.device.used = s.liveBytes
  within : s.device.used ≤ s.device.capacity
  capacity : s.device.capacity = capacity.toNat
  order : ∀ n threads, s.device.order n threads = threads

namespace Sound

variable {capacity : UInt64}

theorem accounted (h : s.Sound capacity) : s.Accounted capacity where
  used := h.used
  within := by rw [← h.used, ← h.capacity]; exact h.within
  available := by rw [Device.available, h.used, h.capacity]
  difference := by
    have hwithin := h.within
    have hlt : capacity.toNat < UInt64.size := capacity.toNat_lt
    rw [h.capacity] at hwithin
    rw [Device.available, h.capacity, UInt64.toNat_sub_of_le, UInt64.toNat_ofNat_of_lt' (by omega)]
    rw [UInt64.le_iff_toNat_le, UInt64.toNat_ofNat_of_lt' (by omega)]
    exact hwithin

theorem start {ordinal : UInt16} {workers : Nat} {morsel : UInt64} {d : Device}
    (hd : Device.build ordinal workers morsel capacity.toNat = .ok d) :
    (State.start d).Sound capacity := by
  obtain ⟨-, rfl⟩ := Device.build_ok hd
  exact ⟨rfl, Nat.zero_le _, rfl, fun _ _ => rfl⟩

/-- Items of other contents and the same bytes. -/
theorem put {id : Nat} {item item' : Item} {d : Device} (h : s.Sound capacity)
    (hid : s.item? id = some item) (hbytes : item'.bytes = item.bytes)
    (hd : s.device.Became d 0) :
    (({ s with device := d } : State).put id item').Sound capacity where
  used := by
    have hlive := liveBytes_set hid (some item') d
    have hheld : heldBytes (some item') = item.bytes := hbytes
    rw [hheld] at hlive
    exact hd.used.trans (h.used.trans (Nat.add_right_cancel hlive).symm)
  within := hd.within h.within
  capacity := hd.capacity.trans h.capacity
  order := fun n threads => by
    show d.order n threads = threads
    rw [hd.order, h.order]

theorem free {id : Nat} {item : Item} (h : s.Sound capacity) (hid : s.item? id = some item) :
    (s.free id item).Sound capacity where
  used := by
    have hlive := liveBytes_set hid none (s.device.release item.bytes)
    have hused := h.used
    have hheld : heldBytes none = 0 := rfl
    show s.device.used - item.bytes = _
    unfold State.free
    omega
  within := Nat.le_trans (Nat.sub_le _ _) h.within
  capacity := h.capacity
  order := h.order

theorem does (h : s.Sound capacity) (hdoes : Does s c a s') : s'.Sound capacity := by
  cases hdoes with
  | @allocates _ item hc hroom =>
    refine ⟨?_, ?_, h.capacity, h.order⟩
    · rw [liveBytes_push, ← h.used]
      rfl
    · have hfits := mt Or.inl hroom
      have hwithin := h.within
      unfold Device.available at hfits
      show s.device.used + item.bytes ≤ s.device.capacity
      omega
  | fails => exact h
  | drops hid => exact h.free hid
  | moves hid => exact h.free hid
  | writes hc hid hindex ha hd =>
    exact h.put hid (by simp [Item.bytes]) hd
  | misses hc hid ha hd =>
    exact ⟨hd.used.trans h.used, hd.within h.within, hd.capacity.trans h.capacity,
      fun n threads => by rw [hd.order, h.order]⟩
  | counts m hc hwrite hkeeps hid => exact h.put hid rfl (.refl _)
  | looks => exact h

theorem step (h : s.Sound capacity) (c : Command) : Does s c (s.step c).1 (s.step c).2 := by
  refine step_does h.order ?_ c
  have hlt := capacity.toNat_lt
  have hmax : Device.maxBytes = 2 ^ 64 - 1 := rfl
  have hcapacity := h.capacity
  omega

end Sound

/-! ## What commands promise -/

/-- Element `i` of the live buffer `id`. -/
def cell? (s : State) (id i : Nat) : Option Nat :=
  match s.item? id with
  | some (.buffer _ values) => values[i]?
  | _ => none

/-- From `s` to `s'` only element `index` of the buffer `id` may have changed, and if there is one
it is `value` as a number of the buffer's type. -/
structure WritesOnly (s s' : State) (id index value : Nat) : Prop where
  others : ∀ id', id' ≠ id → s'.item? id' = s.item? id'
  buffer : ∀ type values, s.item? id = some (.buffer type values) →
    ∃ values', s'.item? id = some (.buffer type values') ∧
      ∀ i, values'[i]? = if i = index then values[i]?.map fun _ => type.wrap value else values[i]?

/-- What a command promises that is answered with `a` in `s` and leads to `s'`. -/
structure Obeys (capacity : UInt64) (s : State) (c : Command) (a : Answer) (s' : State) : Prop where
  /-- An allocation fails if the bytes are more than are left, or more than a word holds, or too
  many for the host's part of a buffer. -/
  failure : ∀ item, c.allocates? = some item →
    ((∃ e, a = .failed e) ↔ capacity.toNat - s.liveBytes < item.bytes ∨
      Device.maxBytes < item.bytes ∨ item.isBuffer ∧ maxHostBytes < item.bytes)
  /-- Else it adds its item. -/
  success : ∀ item, c.allocates? = some item → (∀ e, a ≠ .failed e) →
    a = .allocated s.items.size item.bytes ∧ s'.items = s.items.push (some item)
  /-- A command that fails or is refused changes no item and takes no memory. -/
  declined : a.Declines → s'.items = s.items ∧ s'.device.used = s.device.used
  /-- A command keeps the live items that it does not work on. -/
  frame : ∀ id item, s.item? id = some item → c.target? ≠ some id → s'.item? id = some item
  /-- A write that is not declined is one inside a live buffer. -/
  write : ∀ id index value, c.write? = some (id, index, value) →
    (a.Declines ↔ s.cell? id index = none) ∧ s.WritesOnly s' id index value ∧
      s'.device.used = s.device.used
  moved : ∀ id type values, c = .intoHost id → s.item? id = some (.buffer type values) →
    a = .values values
  givenBack : ∀ id item, s.item? id = some item → c.GivesBack id item →
    s'.item? id = none ∧ s'.device.used + item.bytes = s.device.used

theorem cell?_of_buffer {id : Nat} {type : ItemType} {values : Array Nat}
    (hid : s.item? id = some (.buffer type values)) (i : Nat) : s.cell? id i = values[i]? := by
  rw [cell?, hid]

/-! ## The steps of a kind of command -/

theorem does_of_allocates {item : Item} (hc : c.allocates? = some item) (hdoes : Does s c a s') :
    ¬Refuses s.device item ∧ a = .allocated s.items.size item.bytes ∧
      s' = ⟨s.items.push (some item), s.device.take item.bytes⟩ ∨
    Refuses s.device item ∧ (∃ e, a = .failed e) ∧ s' = s := by
  have htarget := Command.target?_of_allocates hc
  cases hdoes with
  | allocates hc' hroom =>
    cases hc.symm.trans hc'
    exact .inl ⟨hroom, rfl, rfl⟩
  | fails hc' hroom e =>
    cases hc.symm.trans hc'
    exact .inr ⟨hroom, ⟨e, rfl⟩, rfl⟩
  | drops => cases hc
  | moves => cases hc
  | writes hwrite => cases htarget.symm.trans (Command.target?_of_write hwrite)
  | misses hwrite => cases htarget.symm.trans (Command.target?_of_write hwrite)
  | counts _ hcounter => cases htarget.symm.trans hcounter
  | looks hnone => cases hc.symm.trans hnone

theorem does_of_write {id index value : Nat} (hc : c.write? = some (id, index, value))
    (hdoes : Does s c a s') :
    (∃ type values d, s.item? id = some (.buffer type values) ∧ index < values.size ∧
      ¬a.Declines ∧ s.device.Became d 0 ∧
      s' = ({ s with device := d } : State).put id
        (.buffer type (values.setIfInBounds index (type.wrap value)))) ∨
    (∃ d, (∀ type values, s.item? id = some (.buffer type values) → values.size ≤ index) ∧
      a.Declines ∧ s.device.Became d 0 ∧ s' = { s with device := d }) := by
  have htarget := Command.target?_of_write hc
  cases hdoes with
  | allocates hc' => cases htarget.symm.trans (Command.target?_of_allocates hc')
  | fails hc' => cases htarget.symm.trans (Command.target?_of_allocates hc')
  | drops => cases hc
  | moves => cases hc
  | @writes _ _ _ _ _ type values d hc' hid hindex ha hd =>
    cases hc.symm.trans hc'
    refine .inl ⟨type, values, d, hid, hindex, ?_, hd, rfl⟩
    rcases ha with rfl | rfl <;> exact Answer.not_declines nofun nofun
  | misses hc' hid ha hd =>
    cases hc.symm.trans hc'
    exact .inr ⟨_, hid, ha, hd, rfl⟩
  | counts _ _ hnone => cases hc.symm.trans hnone
  | looks _ hnone => cases hc.symm.trans hnone

theorem does_of_givesBack {id : Nat} {item : Item} (hid : s.item? id = some item)
    (hc : c.GivesBack id item) (hdoes : Does s c a s') :
    s' = s.free id item ∧
      (c = .drop id ∨ ∃ type values, item = .buffer type values ∧ a = .values values) := by
  have htarget := Command.target?_of_givesBack hc
  cases hdoes with
  | allocates hc' => cases htarget.symm.trans (Command.target?_of_allocates hc')
  | fails hc' => cases htarget.symm.trans (Command.target?_of_allocates hc')
  | drops hid' =>
    cases htarget
    cases hid.symm.trans hid'
    exact ⟨rfl, .inl rfl⟩
  | moves hid' =>
    cases htarget
    cases hid.symm.trans hid'
    exact ⟨rfl, .inr ⟨_, _, rfl, rfl⟩⟩
  | writes hwrite => exact absurd hc (Command.not_givesBack_of_write hwrite)
  | misses hwrite => exact absurd hc (Command.not_givesBack_of_write hwrite)
  | counts _ _ _ hkeeps => exact absurd hc (hkeeps id item)
  | looks _ _ hkeeps => exact absurd hc (hkeeps id item hid)

theorem does_of_declines (ha : a.Declines) (hdoes : Does s c a s') :
    s'.items = s.items ∧ s'.device.used = s.device.used := by
  cases hdoes with
  | allocates => exact absurd ha (Answer.not_declines nofun nofun)
  | fails => exact ⟨rfl, rfl⟩
  | drops => exact absurd ha (Answer.not_declines nofun nofun)
  | moves => exact absurd ha (Answer.not_declines nofun nofun)
  | writes _ _ _ ha' =>
    rcases ha' with rfl | rfl <;> exact absurd ha (Answer.not_declines nofun nofun)
  | misses _ _ _ hd => exact ⟨rfl, hd.used⟩
  | counts _ _ _ _ _ ha' =>
    rcases ha' with ⟨n, rfl⟩ | rfl <;> exact absurd ha (Answer.not_declines nofun nofun)
  | looks => exact ⟨rfl, rfl⟩

/-- What a command does to an item that it does not work on: nothing. -/
theorem does_frame {id : Nat} {item : Item} (hid : s.item? id = some item)
    (hc : c.target? ≠ some id) (hdoes : Does s c a s') : s'.item? id = some item := by
  have hlt := lt_of_item? hid
  cases hdoes with
  | allocates => rw [item?_push, if_neg (by omega), hid]
  | fails => exact hid
  | drops hid' =>
    rw [free, item?_set (lt_of_item? hid'), if_neg fun heq => hc (congrArg some heq.symm), hid]
  | moves hid' =>
    rw [free, item?_set (lt_of_item? hid'), if_neg fun heq => hc (congrArg some heq.symm), hid]
  | writes hwrite hid' =>
    have htarget := Command.target?_of_write hwrite
    have hne : id ≠ _ := fun heq => hc (htarget.trans (congrArg some heq.symm))
    rw [put, item?_set (lt_of_item? hid'), if_neg hne]
    exact hid
  | misses => exact hid
  | counts _ htarget _ _ hid' =>
    have hne : id ≠ _ := fun heq => hc (htarget.trans (congrArg some heq.symm))
    rw [put, item?_set (lt_of_item? hid'), if_neg hne]
    exact hid
  | looks => exact hid

theorem does_writesOnly {id index value : Nat} (hc : c.write? = some (id, index, value))
    (hdoes : Does s c a s') :
    (a.Declines ↔ s.cell? id index = none) ∧ s.WritesOnly s' id index value ∧
      s'.device.used = s.device.used := by
  rcases does_of_write hc hdoes with
    ⟨type, values, d, hid, hindex, ha, hd, rfl⟩ | ⟨d, hout, ha, hd, rfl⟩
  · have hlt := lt_of_item? hid
    refine ⟨iff_of_false ha ?_, ⟨fun id' hne => ?_, fun type' values' hid' => ?_⟩, hd.used⟩
    · rw [cell?_of_buffer hid, Array.getElem?_eq_getElem hindex]
      exact Option.some_ne_none _
    · rw [put, item?_set hlt, if_neg hne]
    · cases hid.symm.trans hid'
      refine ⟨values.setIfInBounds index (type.wrap value), ?_, fun i => ?_⟩
      · rw [put, item?_set hlt, if_pos rfl]
      · rw [Array.getElem?_setIfInBounds]
        by_cases hi : i = index
        · subst hi
          rw [if_pos rfl, if_pos hindex, if_pos rfl, Array.getElem?_eq_getElem hindex]
          rfl
        · rw [if_neg (Ne.symm hi), if_neg hi]
  · refine ⟨iff_of_true ha ?_, ⟨fun _ _ => rfl, fun type values hid => ?_⟩, hd.used⟩
    · unfold cell?
      split
      · rename_i type values hid
        exact Array.getElem?_eq_none (hout type values hid)
      · rfl
    · refine ⟨values, hid, fun i => ?_⟩
      by_cases hi : i = index
      · subst hi
        rw [if_pos rfl, Array.getElem?_eq_none (hout type values hid)]
        rfl
      · rw [if_neg hi]

theorem Sound.obeys {capacity : UInt64} (h : s.Sound capacity) (hdoes : Does s c a s') :
    s.Obeys capacity c a s' where
  failure := fun item hc => by
    have haccounted := h.accounted
    rw [← haccounted.available]
    change _ ↔ Refuses s.device item
    rcases does_of_allocates hc hdoes with ⟨hroom, rfl, -⟩ | ⟨hroom, hfailed, -⟩
    · exact iff_of_false (by rintro ⟨e, he⟩; cases he) hroom
    · exact iff_of_true hfailed hroom
  success := fun item hc ha => by
    rcases does_of_allocates hc hdoes with ⟨-, rfl, rfl⟩ | ⟨-, ⟨e, he⟩, -⟩
    · exact ⟨rfl, rfl⟩
    · exact absurd he (ha e)
  declined := fun ha => does_of_declines ha hdoes
  frame := fun id item hid hc => does_frame hid hc hdoes
  write := fun id index value hc => does_writesOnly hc hdoes
  moved := fun id type values hc hid => by
    subst hc
    have hback : (Command.intoHost id).GivesBack id (.buffer type values) := ⟨rfl, rfl⟩
    obtain ⟨-, hdrop | ⟨type', values', heq, rfl⟩⟩ := does_of_givesBack hid hback hdoes
    · cases hdrop
    · cases heq
      rfl
  givenBack := fun id item hid hc => by
    obtain ⟨rfl, -⟩ := does_of_givesBack hid hc hdoes
    have hused := h.used
    have hlive := liveBytes_set hid none s.device
    rw [show heldBytes none = 0 from rfl] at hlive
    refine ⟨?_, ?_⟩
    · rw [State.free, item?_set (lt_of_item? hid), if_pos rfl]
    · show s.device.used - item.bytes + item.bytes = s.device.used
      omega

end State

/-! ## The log of a session -/

/-- A session together with the commands so far and their answers, the latest first. -/
structure Log where
  state : State
  events : List (Command × Answer)

/-- What the event wrote to element `i` of item `id`.  An allocation writes all elements. -/
def written? (id i : Nat) : Command × Answer → Option Nat
  | (c, .allocated new _) => if new = id then c.initial? i else none
  | (c, .set) | (c, .written) => do
    let (target, index, value) ← c.write?
    if target = id ∧ index = i then some value else none
  | _ => none

namespace Log

variable {log : Log} {capacity : UInt64}

def start (d : Device) : Log := ⟨State.start d, []⟩

def step (log : Log) (c : Command) : Log :=
  ⟨(log.state.step c).2, (c, (log.state.step c).1) :: log.events⟩

def run (log : Log) (commands : List Command) : Log := commands.foldl step log

/-- What was last written to element `i` of item `id`. -/
def lastWritten? (log : Log) (id i : Nat) : Option Nat := log.events.findSome? (written? id i)

/-- Every element of a live buffer is what was last written to it. -/
def Truthful (log : Log) : Prop :=
  ∀ id type values, log.state.item? id = some (.buffer type values) →
    ∀ i, values[i]? = (log.lastWritten? id i).map type.wrap

/-- The log tells of no item that the session has not allocated. -/
def Bounded (log : Log) : Prop :=
  ∀ id i, log.state.items.size ≤ id → log.lastWritten? id i = none

theorem lastWritten?_cons (s : State) (e : Command × Answer) (id i : Nat) :
    (⟨s, e :: log.events⟩ : Log).lastWritten? id i =
      (written? id i e).or (log.lastWritten? id i) := by
  unfold lastWritten?
  rw [List.findSome?_cons]
  cases written? id i e <;> rfl

variable {c : Command} {a : Answer} {s' : State}

theorem written?_eq_none (hnew : ∀ id bytes, a ≠ .allocated id bytes)
    (hwrite : c.write? = none ∨ a.Declines) (id i : Nat) : written? id i (c, a) = none := by
  cases a with
  | allocated new bytes => exact absurd rfl (hnew new bytes)
  | set =>
    rcases hwrite with hnone | hdeclines
    · simp only [written?, hnone, Option.bind_none, Option.bind_eq_bind]
    · exact absurd hdeclines (Answer.not_declines nofun nofun)
  | written =>
    rcases hwrite with hnone | hdeclines
    · simp only [written?, hnone, Option.bind_none, Option.bind_eq_bind]
    · exact absurd hdeclines (Answer.not_declines nofun nofun)
  | _ => rfl

theorem written?_of_write {id index value : Nat} (hc : c.write? = some (id, index, value))
    (ha : a = .set ∨ a = .written) (id' i : Nat) :
    written? id' i (c, a) = if id = id' ∧ index = i then some value else none := by
  rcases ha with rfl | rfl <;>
    simp only [written?, hc, Option.bind_some, Option.bind_eq_bind]

/-- The elements of a new buffer. -/
theorem getElem?_of_allocates {type : ItemType} {values : Array Nat}
    (hc : c.allocates? = some (.buffer type values)) (i : Nat) :
    values[i]? = (c.initial? i).map type.wrap := by
  cases c with
  | zeroed type' len =>
    cases hc
    rw [Array.getElem?_replicate, Command.initial?]
    split
    · show some 0 = some (type.wrap 0)
      rw [ItemType.wrap, Nat.zero_mod]
    · rfl
  | filled type' len value =>
    cases hc
    rw [Array.getElem?_replicate, Command.initial?]
    split <;> rfl
  | fromSlice type' values' =>
    cases hc
    exact Array.getElem?_map
  | fromFn type' len f =>
    cases hc
    rw [Array.getElem?_map, Array.getElem?_range, Command.initial?]
    split <;> rfl
  | _ => cases hc

/-- The event writes nothing, and the state after it has no other buffers. -/
structure WritesNothing (s s' : State) (e : Command × Answer) : Prop where
  written : ∀ id i, written? id i e = none
  buffers : ∀ id type values, s'.item? id = some (.buffer type values) →
    s.item? id = some (.buffer type values)
  size : s'.items.size = s.items.size

theorem WritesNothing.of_set {s : State} {id : Nat} (hid : id < s.items.size) {item? : Option Item}
    (hitem : ∀ type values, item? ≠ some (.buffer type values)) (d : Device)
    (hnone : ∀ id i, written? id i (c, a) = none) :
    WritesNothing s ⟨s.items.setIfInBounds id item?, d⟩ (c, a) where
  written := hnone
  buffers := by
    intro id' type values hid'
    rw [State.item?_set hid] at hid'
    split at hid'
    · exact absurd hid' (hitem type values)
    · exact hid'
  size := Array.size_setIfInBounds

/-- A command allocates, or writes to a buffer, or writes nothing. -/
theorem does_cases {s : State} (hdoes : s.Does c a s') :
    (∃ item, c.allocates? = some item ∧ a = .allocated s.items.size item.bytes ∧
      s' = ⟨s.items.push (some item), s.device.take item.bytes⟩) ∨
    (∃ id index value type values d, c.write? = some (id, index, value) ∧
      s.item? id = some (.buffer type values) ∧ index < values.size ∧ (a = .set ∨ a = .written) ∧
      s' = { s with device := d }.put id
        (.buffer type (values.setIfInBounds index (type.wrap value)))) ∨
    WritesNothing s s' (c, a) := by
  cases hdoes with
  | allocates hc hroom => exact .inl ⟨_, hc, rfl, rfl⟩
  | fails hc hroom e =>
    exact .inr (.inr ⟨written?_eq_none nofun (.inr (.inl ⟨e, rfl⟩)), fun _ _ _ => id, rfl⟩)
  | drops hid =>
    refine .inr (.inr (.of_set (State.lt_of_item? hid) ?_ _ (written?_eq_none nofun (.inl rfl))))
    nofun
  | moves hid =>
    refine .inr (.inr (.of_set (State.lt_of_item? hid) ?_ _ (written?_eq_none nofun (.inl rfl))))
    nofun
  | writes hc hid hindex ha hd => exact .inr (.inl ⟨_, _, _, _, _, _, hc, hid, hindex, ha, rfl⟩)
  | misses hc hid ha hd =>
    refine .inr (.inr ⟨written?_eq_none ?_ (.inr ha), fun _ _ _ => id, rfl⟩)
    rintro id bytes rfl
    exact absurd ha (Answer.not_declines nofun nofun)
  | counts m hc hwrite hkeeps hid ha =>
    refine .inr (.inr (.of_set (State.lt_of_item? hid) ?_ _ (written?_eq_none ?_ (.inl hwrite))))
    · nofun
    · rcases ha with ⟨n, rfl⟩ | rfl <;> nofun
  | looks hc hwrite hkeeps ha =>
    exact .inr (.inr ⟨written?_eq_none ha (.inl hwrite), fun _ _ _ => id, rfl⟩)

theorem Truthful.does (h : log.Truthful) (hb : log.Bounded) (hdoes : log.state.Does c a s') :
    (⟨s', (c, a) :: log.events⟩ : Log).Truthful := by
  intro id type values hid i
  rw [lastWritten?_cons]
  rcases does_cases hdoes with
    ⟨item, hc, rfl, rfl⟩ | ⟨id', index, value, type', values', d, hc, hid', hindex, ha, rfl⟩ |
      hkeeps
  · rw [State.item?_push] at hid
    rw [written?]
    by_cases hnew : id = log.state.items.size
    · rw [if_pos hnew] at hid
      cases hid
      rw [if_pos hnew.symm, hb id i (by omega), Option.or_none]
      exact getElem?_of_allocates hc i
    · rw [if_neg hnew] at hid
      rw [if_neg (Ne.symm hnew), Option.none_or]
      exact h id type values hid i
  · rw [State.put, State.item?_set (State.lt_of_item? hid')] at hid
    rw [written?_of_write hc ha]
    by_cases hsame : id = id'
    · subst hsame
      rw [if_pos rfl] at hid
      cases hid
      rw [Array.getElem?_setIfInBounds]
      by_cases hi : index = i
      · rw [if_pos hi, if_pos hindex, if_pos ⟨rfl, hi⟩]
        rfl
      · rw [if_neg hi, if_neg fun heq => hi heq.2, Option.none_or]
        exact h id _ values' hid' i
    · rw [if_neg hsame] at hid
      rw [if_neg fun heq => hsame heq.1.symm, Option.none_or]
      exact h id type values hid i
  · rw [hkeeps.written, Option.none_or]
    exact h id type values (hkeeps.buffers id type values hid) i

theorem Bounded.does (h : log.Bounded) (hdoes : log.state.Does c a s') :
    (⟨s', (c, a) :: log.events⟩ : Log).Bounded := by
  intro id i hle
  rw [lastWritten?_cons]
  rcases does_cases hdoes with
    ⟨item, hc, rfl, rfl⟩ | ⟨id', index, value, type, values, d, hc, hid, hindex, ha, rfl⟩ | hkeeps
  · have hlt : log.state.items.size < id := by
      rw [Array.size_push] at hle
      omega
    rw [written?, if_neg (by omega), Option.none_or]
    exact h id i (by omega)
  · have hbound : log.state.items.size ≤ id := by
      rw [State.put, Array.size_setIfInBounds] at hle
      exact hle
    have hlt := State.lt_of_item? hid
    rw [written?_of_write hc ha, if_neg (by omega), Option.none_or]
    exact h id i hbound
  · rw [hkeeps.written, Option.none_or]
    exact h id i (hkeeps.size ▸ hle)

/-- What every command of a session keeps, of its memory and of its log. -/
structure Sound (capacity : UInt64) (log : Log) : Prop where
  state : log.state.Sound capacity
  truthful : log.Truthful
  bounded : log.Bounded

namespace Sound

theorem start {ordinal : UInt16} {workers : Nat} {morsel : UInt64} {d : Device}
    (hd : Device.build ordinal workers morsel capacity.toNat = .ok d) :
    (Log.start d).Sound capacity :=
  ⟨.start hd, fun _ _ _ hid => (nomatch hid), fun _ _ _ => rfl⟩

theorem step (h : log.Sound capacity) (c : Command) : (log.step c).Sound capacity :=
  have hdoes := h.state.step c
  ⟨h.state.does hdoes, h.truthful.does h.bounded hdoes, h.bounded.does hdoes⟩

theorem run (h : log.Sound capacity) (commands : List Command) :
    (log.run commands).Sound capacity := by
  induction commands generalizing log with
  | nil => exact h
  | cons c rest ih => exact ih (h.step c)

end Sound

/-- After any commands on a device of any capacity, the memory used is that of the live items and
the buffers hold what was last written to them, and the next command, whichever it is, keeps its
promises. -/
theorem run_keeps_account {ordinal : UInt16} {workers : Nat} {morsel capacity : UInt64} {d : Device}
    (hd : Device.build ordinal workers morsel capacity.toNat = .ok d) (commands : List Command) :
    let log := (start d).run commands
    log.state.Accounted capacity ∧ log.Truthful ∧
      ∀ c, log.state.Obeys capacity c (log.state.step c).1 (log.state.step c).2 := by
  have h := (Sound.start hd).run commands
  exact ⟨h.state.accounted, h.truthful, fun c => h.state.obeys (h.state.step c)⟩

/-- Two workers, five blocks to a morsel, and room for 100 bytes. -/
def sampleDevice : Device := ⟨0, 2, 5, 100, 0, 0, fun _ threads => threads⟩

/-- Two of the allocations and one of the writes are declined. -/
def sampleCommands : List Command :=
  [.zeroed .u64 10, .zeroed .u64 10, .kernelWrite 0 3 7, .set 0 4 9, .kernelWrite 0 10 1, .counter,
    .reserveItems .u32 4]

theorem run_keeps_account_sample :
    let log := (start sampleDevice).run sampleCommands
    Device.build 0 2 5 (100 : UInt64).toNat = .ok sampleDevice ∧
      log.state.Accounted 100 ∧ log.state.liveBytes = 88 ∧
      log.Truthful ∧ log.lastWritten? 0 3 = some 7 ∧
      log.state.Obeys 100 (.intoHost 0) (.values #[0, 0, 0, 7, 9, 0, 0, 0, 0, 0])
        (log.state.step (.intoHost 0)).2 := by
  have hbuild : Device.build 0 2 5 (100 : UInt64).toNat = .ok sampleDevice := rfl
  obtain ⟨haccounted, htruthful, hobeys⟩ := run_keeps_account hbuild sampleCommands
  exact ⟨hbuild, haccounted, by decide +kernel, htruthful, by decide +kernel, hobeys (.intoHost 0)⟩

end Log
end Session
end GridOps
