import GridOps.Proofs.Join.Course
import Mathlib.Algebra.Order.BigOperators.Group.List
import Mathlib.Algebra.Order.Group.Nat

/-!
How a whole join ends.

A build fails for want of memory or because of a reserved key, and never because its table is full
(`buildOrFail_follows`).  The table that it leaves is a matter of the order in which its launch runs
(`tableOn`), so a join that has been accepted follows a plan over numbers (`execute_follows`).
-/

namespace GridOps

theorem DeviceM.reserveItems_ok {items size : Nat} {d d' : Device} {u : Unit}
    (h : reserveItems items size d = .ok u d') : d' = d.take (items * size) := by
  unfold reserveItems reserve at h
  split at h
  · cases h
  · split at h <;> cases h
    rfl

theorem Word.size_pred_le_top {S : Type} [Word S] (h : 4 ≤ Word.bytes S) :
    UInt32.size - 1 ≤ Word.toNat (Word.top S) := by
  have hsize : UInt32.size ≤ Word.size S := by
    rw [Word.size_eq]
    exact Nat.pow_le_pow_right (n := 256) (by decide) h
  have hword : UInt32.size = 4294967296 := rfl
  rw [Word.top, Word.toNat_ofNat, Nat.mod_eq_of_lt (by omega)]
  omega

/-! ## Building -/

namespace Multimap

variable {K S : Type} [JoinKey K] [Word S] {keys : Array K}

/-- A slot has room for the key and the row at the width of the wider of the two. -/
theorem slotBytes_eq (h : Word.bytes S = 4 ∨ Word.bytes S = 8) :
    slotBytes K S = if (JoinKey.type K).bytes = 4 ∧ Word.bytes S = 4 then 8 else 16 := by
  unfold slotBytes
  cases JoinKey.type K <;> rcases h with h | h <;> simp [KeyType.bytes, h]

/-- All rows have an entry exactly if no key is reserved. -/
theorem stored_iff {rows : List Nat} (hrows : rows.Perm (List.range keys.size)) :
    (∀ i ∈ rows, (rowEntry (S := S) keys i).isSome) ↔ JoinKey.reserved K ∉ keys := by
  constructor
  · intro hstored hmem
    obtain ⟨i, hi, hkey⟩ := Array.getElem_of_mem hmem
    have hsome := hstored i (hrows.mem_iff.mpr (List.mem_range.mpr hi))
    rw [rowEntry, Array.getElem?_eq_getElem hi] at hsome
    simp [hkey] at hsome
  · intro hfree i hi
    have hlt : i < keys.size := List.mem_range.mp (hrows.mem_iff.mp hi)
    have hkey : keys[i] ≠ JoinKey.reserved K := fun hkey =>
      hfree (hkey ▸ Array.getElem_mem hlt)
    simp [rowEntry, hlt, hkey]

/-- A table with room for all rows refuses none, and counts a reserved key if there is one. -/
theorem counters {m : Multimap K S} (hm : m.Holds []) {rows : List Nat}
    (hrows : rows.Perm (List.range keys.size)) (hroom : keys.size ≤ m.capacity)
    (hsize : keys.size < UInt64.size) :
    ((rows.foldl (fun s i => buildRow keys i s) ⟨m, 0, 0⟩).reserved = 0 ↔
      JoinKey.reserved K ∉ keys) ∧
    (rows.foldl (fun s i => buildRow keys i s) ⟨m, 0, 0⟩).rejected = 0 := by
  obtain ⟨hreserved, hrejected⟩ := hm.counts hrows hsize
  have hnew : m.len = 0 := hm.perm.length_eq
  constructor
  · rw [← UInt64.toNat_inj, hreserved, ← Array.mem_toList_iff]
    exact List.count_eq_zero
  · refine UInt64.toNat_inj.mp (hrejected.trans ?_)
    rw [hnew]
    exact Nat.sub_eq_zero_of_le (Nat.le_trans (Nat.sub_le _ _) hroom)

theorem allocate_follows {capacity : Nat} (hpos : 0 < capacity) (keying : Keying K) (d : Device) :
    DeviceM.Follows JoinError.kind (fun _ => ())
      (allocate capacity keying : DeviceM _ (Multimap K S))
      (.allocate capacity (slotBytes K S)) d := by
  unfold allocate Plan.allocate
  rw [if_neg (Nat.ne_of_gt hpos)]
  refine (HashJoin.of_device (DeviceM.reserveItems_follows _ _ d)).bind_of fun _ d' _ => ?_
  unfold DeviceM.ending DeviceM.keepingBytes
  by_cases hhost : maxHostBytes < capacity * slotBytes K S <;>
    simp [hhost, JoinError.kind, DeviceError.kind]

theorem allocate_device {capacity : Nat} {keying : Keying K} {m : Multimap K S} {d d' : Device}
    (h : allocate capacity keying d = .ok m d') :
    d' = d.take (capacity * slotBytes K S) := by
  unfold allocate at h
  split at h
  · cases h
  · obtain ⟨_, d₁, htake, h⟩ := DeviceM.bind_ok h
    have h := DeviceM.keepingBytes_ok h
    split at h <;> cases h
    exact DeviceM.reserveItems_ok (DeviceM.mapError_ok htake)

theorem fill_follows {block : UInt32} (hb : block ≠ 0) (m : Multimap K S)
    (hsize : keys.size + UInt32.size ≤ UInt64.size) (d : Device) :
    DeviceM.Follows DeviceError.kind (fun _ => ()) (m.fill block keys)
      (HashJoin.fillPlan block keys.size) d := by
  refine (DeviceM.forLen_follows hb hsize d).bind (.ofExcept _) fun l d' _ _ => ?_
  refine DeviceM.withCounter_follows fun d' _ => DeviceM.withCounter_follows fun d' _ => ?_
  rfl

/-- The rows are added in the order in which the next launch of the device runs. -/
theorem fill_rows {m : Multimap K S} {block : UInt32} {d d' : Device}
    {outcome : Outcome (BuildState K S)} (hsize : keys.size + UInt32.size ≤ UInt64.size)
    (h : m.fill block keys d = .ok outcome d') :
    ∃ l, Launch.forLen (UInt64.ofNat keys.size) block = .ok l ∧
      outcome = ⟨(d.rowOrder l keys.size).foldl (fun s i => buildRow keys i s)
        ⟨m, 0, 0⟩, none⟩ := by
  obtain ⟨l, d₁, hl, h⟩ := DeviceM.bind_ok h
  have hforLen := DeviceM.ofExcept_ok hl
  rw [DeviceM.ofExcept_of_ok hforLen] at hl
  cases hl
  obtain ⟨_, d₂, htake, h⟩ := DeviceM.bind_ok h
  obtain ⟨d₃, h, -⟩ := DeviceM.withBytes_ok h
  obtain ⟨_, d₄, htake', h⟩ := DeviceM.bind_ok h
  obtain ⟨d₅, h, -⟩ := DeviceM.withBytes_ok h
  rw [DeviceM.reserveItems_ok htake', DeviceM.reserveItems_ok htake] at h
  have hrun := Device.run_rows "build_hash_table" (P := fun _ => True)
    (d := (d.take (1 * DeviceM.counterBytes)).take (1 * DeviceM.counterBytes))
    (Launch.forLen_ofNat_covers hsize hforLen)
    (fun t s _ => buildKernel_eq keys t s) (fun _ _ _ _ => trivial) (s := ⟨m, 0, 0⟩) trivial
  rw [hrun] at h
  cases h
  exact ⟨l, hforLen, rfl⟩

theorem buildOrFail_follows {block : UInt32} (hb : block ≠ 0) {m : Multimap K S} (hm : m.Holds [])
    (hlen : keys.size < Word.toNat (Word.top S)) (hroom : keys.size ≤ m.capacity)
    (hsize : keys.size + UInt32.size ≤ UInt64.size) {d : Device} (hd : d.RunsAll) :
    DeviceM.Follows JoinError.kind (fun _ => ()) (m.buildOrFail block keys)
      (HashJoin.buildPlan block keys.size (decide (JoinKey.reserved K ∈ keys))) d := by
  unfold DeviceM.Follows DeviceM.ending buildOrFail build HashJoin.buildPlan
  rw [if_neg (Nat.not_le_of_lt hlen)]
  by_cases hempty : keys.size = 0
  · rw [if_pos hempty, if_pos (by simpa using hempty)]
    rfl
  · rw [if_neg hempty, if_neg (by simpa using hempty)]
    have hfollows := fill_follows hb m hsize d
    cases hfill : m.fill block keys d with
    | error e d' =>
      rw [Plan.bind_of_error (hfollows.symm.trans (DeviceM.ending_of_error hfill))]
      rfl
    | ok outcome d' =>
      rw [Plan.bind_of_ok (hfollows.symm.trans (DeviceM.ending_of_ok hfill))]
      obtain ⟨rows, horder, rfl⟩ := fill_ok hd hsize hfill
      have hword : 0 < UInt32.size := by decide
      obtain ⟨hreserved, hrejected⟩ := counters hm horder.perm hroom (by omega)
      dsimp only
      by_cases hmem : JoinKey.reserved K ∈ keys
      · rw [if_pos fun hzero => hreserved.mp hzero hmem]
        simp [hmem, JoinError.kind]
      · rw [if_neg (not_not.mpr (hreserved.mpr hmem)), if_neg (not_not.mpr hrejected)]
        simp [hmem]

/-- A build that succeeds leaves the table that its rows make in the order of the next launch. -/
theorem buildOrFail_table {block : UInt32} (hb : block ≠ 0) {m m' : Multimap K S} {d d' : Device}
    (hsize : keys.size + UInt32.size ≤ UInt64.size) (h : m.buildOrFail block keys d = .ok m' d') :
    ∃ l, Launch.forLen (UInt64.ofNat keys.size) block = .ok l ∧
      m' = ((d.rowOrder l keys.size).foldl (fun s i => buildRow keys i s) ⟨m, 0, 0⟩).table := by
  unfold buildOrFail build at h
  split at h <;> rename_i hbuild <;> cases h
  split at hbuild
  · cases hbuild
  split at hbuild
  · rename_i hempty
    cases hbuild
    have hzero : keys.size = 0 := by simpa using hempty
    obtain ⟨l, hl, -⟩ := Launch.exists_forLen_covers hb (Nat.zero_le _)
    exact ⟨l, by rwa [hzero], by simp [Device.rowOrder, hzero]⟩
  · cases hfill : m.fill block keys d with
    | error e d₁ =>
      rw [hfill] at hbuild
      cases hbuild
    | ok outcome d₁ =>
      obtain ⟨l, hl, rfl⟩ := fill_rows hsize hfill
      rw [hfill] at hbuild
      exact ⟨l, hl, (congrArg (fun x => x.2.1) hbuild).symm⟩

end Multimap

/-! ## The whole join -/

/-- Probe rows emit at most as many rows as their look-ups find, or one. -/
theorem Prober.length_emissions_le_mul {K S : Type} [Word S] {table : Multimap K S} {n : Nat}
    (p : Prober) (probe build : KeyColumns K) (hfind : ∀ key, (table.find key).length ≤ n)
    (rows : List Nat) :
    (p.emissions table probe build rows).length ≤ rows.length * max n 1 := by
  rw [emissions, List.length_flatMap, ← List.length_map (f := fun row =>
    (p.emitted table probe build row).length)]
  refine List.sum_le_card_nsmul _ (max n 1) fun k hk => ?_
  obtain ⟨row, -, rfl⟩ := List.mem_map.mp hk
  exact length_emitted_le hfind row

namespace HashJoin

/-- The slots of a table over so many rows. -/
def tableSlots (j : HashJoin) (rows : Nat) : Nat := max (rows * 100 / j.occupancy) 1

theorem le_tableSlots (j : HashJoin) (rows : Nat) : rows ≤ j.tableSlots rows := by
  have hpercent : rows ≤ rows * 100 / j.occupancy := by
    rw [Nat.le_div_iff_mul_le j.occupancy_pos]
    exact Nat.mul_le_mul_left rows j.occupancy_le
  unfold tableSlots
  omega

theorem tableSlots_pos (j : HashJoin) (rows : Nat) : 0 < j.tableSlots rows := by
  unfold tableSlots
  omega

theorem tableSlots_le (j : HashJoin) (rows : Nat) : j.tableSlots rows ≤ rows * 100 + 1 := by
  have hpercent := Nat.div_le_self (rows * 100) j.occupancy
  unfold tableSlots
  omega

theorem capacityFor_eq (j : HashJoin) (rows : Nat) :
    Multimap.capacityFor rows j.occupancy =
      if Device.maxBytes < rows * 100 then .error .capacityOverflow
      else .ok (j.tableSlots rows) := by
  have hpos := j.occupancy_pos
  have hle := j.occupancy_le
  unfold Multimap.capacityFor
  rw [if_neg (by omega)]
  rfl

theorem capacityFor_slots {j : HashJoin} {rows capacity : Nat}
    (h : Multimap.capacityFor rows j.occupancy = .ok capacity) : capacity = j.tableSlots rows := by
  rw [capacityFor_eq] at h
  split at h <;> cases h
  rfl

variable {K S : Type} [JoinKey K] [Word S] {j : HashJoin} {keying : Keying K}
  {left right : KeyColumns K} {d d' : Device}

/-- The table that a build leaves if its rows are taken up in the order of the next launch of
`d`. -/
def tableOn (S : Type) [Word S] (j : HashJoin) (keying : Keying K) (keys : Array K) (d : Device) :
    Multimap K S :=
  match Launch.forLen (UInt64.ofNat keys.size) j.block with
  | .ok l => ((d.rowOrder l keys.size).foldl (fun s i => Multimap.buildRow keys i s)
      ⟨.free (j.tableSlots keys.size) keying, 0, 0⟩).table
  | .error _ => .free (j.tableSlots keys.size) keying

/-- The load of a join on the device `d`. -/
def loadOn (S : Type) [Word S] (j : HashJoin) (keying : Keying K) (left right : KeyColumns K)
    (d : Device) : Load :=
  j.load (j.tableOn S keying (j.built left right).keys d) (j.probed left right)
    (j.built left right)

@[simp] theorem probeRows_loadOn : (j.loadOn S keying left right d).probeRows =
    (j.probed left right).len := rfl

@[simp] theorem buildRows_loadOn : (j.loadOn S keying left right d).buildRows =
    (j.built left right).len := rfl

@[simp] theorem rowBytes_loadOn : (j.loadOn S keying left right d).rowBytes = Word.bytes S := rfl

theorem Prepared.eq_tableOn {capacity : Nat} {table : Multimap K S}
    (h : Prepared j keying left right d capacity table d') :
    table = j.tableOn S keying (j.built left right).keys d := by
  obtain ⟨d₁, hallocate, hbuild⟩ := h.build
  have hsize : (j.built left right).keys.size + UInt32.size ≤ UInt64.size := capacityFor_ok h.slots
  have hcapacity : capacity = j.tableSlots (j.built left right).keys.size :=
    capacityFor_slots h.slots
  obtain ⟨l, hl, htable⟩ := Multimap.buildOrFail_table j.block_ne hsize hbuild
  rw [htable, Multimap.allocate_device hallocate, hcapacity, tableOn, hl]
  rfl

theorem Prepared.rowsFound_eq {capacity : Nat} {table : Multimap K S}
    (h : Prepared j keying left right d capacity table d') :
    j.rowsFound table (j.probed left right) (j.built left right) =
      (j.loadOn S keying left right d).rows := by
  rw [loadOn, rows_load, ← h.eq_tableOn]

/-- A join of accepted sides ends as the numbers say. -/
theorem execute_follows (h : Accepted S left right)
    (hprobed : (j.probed left right).len + UInt32.size ≤ UInt64.size)
    (hrows : (j.loadOn S keying left right d).rows < UInt64.size) (hd : d.RunsAll) :
    DeviceM.Follows JoinError.kind JoinResult.unflipped
      (j.execute keying left right : DeviceM JoinError (JoinResult S))
      (j.executePlan (j.loadOn S keying left right d)
        (decide (JoinKey.reserved K ∈ (j.built left right).keys)) (Multimap.slotBytes K S)) d := by
  refine DeviceM.Follows.congr ?_ (prepare_of_accepted _ _ h d)
  unfold executePlan
  rw [probeRows_loadOn, buildRows_loadOn]
  by_cases hempty : j.TriviallyEmpty left right
  · have hnone : (j.probed left right).len = 0 ∨
        ((j.built left right).len = 0 ∧ j.joinType = .inner) := hempty
    rw [if_pos hempty, if_pos hnone]
    exact .pure _ _
  · have hsome : ¬((j.probed left right).len = 0 ∨
        ((j.built left right).len = 0 ∧ j.joinType = .inner)) := hempty
    rw [if_neg hempty, if_neg hsome]
    refine (DeviceM.Follows.ofExcept _).bind (.ofExcept _) fun capacity d₁ hslots _ => ?_
    have hcapacity := DeviceM.ofExcept_ok hslots
    rw [DeviceM.ofExcept_of_ok hcapacity] at hslots
    cases hslots
    have hpos : 0 < capacity := capacityFor_slots hcapacity ▸ j.tableSlots_pos _
    have hroom : (j.built left right).len ≤
        (Multimap.free capacity keying : Multimap K S).capacity := by
      rw [capacityFor_slots hcapacity]
      exact Nat.le_trans (j.le_tableSlots _) (Nat.le_of_eq Array.size_replicate.symm)
    refine (Multimap.allocate_follows hpos keying d).take (Multimap.allocate_balanced _ _)
      fun m d₂ hallocate hb₂ => .withBytes _ ?_
    obtain ⟨-, rfl⟩ := Multimap.allocate_ok hallocate
    refine (Multimap.buildOrFail_follows j.block_ne (Multimap.holds_free hpos keying)
      (h.built_lt j) hroom (capacityFor_ok hcapacity) (hd.became hb₂)).bind
      (Multimap.buildOrFail_balanced ..) fun table d₃ hbuild hb₃ => ?_
    have hprepared : Prepared j keying left right d capacity table d₃ :=
      ⟨h, hempty, hcapacity, d₂, hallocate, hbuild⟩
    obtain ⟨-, -, -, -, hslots⟩ := hprepared.stores hd
    have hprobe := probeTable_follows (j.flips left right) (hprepared.probeable hd hprobed)
      (hprepared.rowsFound_eq ▸ hrows) (hd.became (hb₂.trans hb₃))
    rw [hslots] at hprobe
    rwa [loadOn, ← hprepared.eq_tableOn]

/-! ## The numbers of a load -/

/-- In whatever order the rows are taken up, a table holds at most an entry for each. -/
theorem tableOn_holds (keying : Keying K) {keys : Array K}
    (hsize : keys.size + UInt32.size ≤ UInt64.size) (hd : d.RunsAll) :
    ∃ es, (j.tableOn S keying keys d).Holds es ∧ es.length ≤ keys.size ∧
      ∀ entry ∈ es, ∃ i, Multimap.rowEntry keys i = some entry := by
  have hfree : (Multimap.free (j.tableSlots keys.size) keying : Multimap K S).Holds [] :=
    Multimap.holds_free (j.tableSlots_pos _) keying
  unfold tableOn
  cases hl : Launch.forLen (UInt64.ofNat keys.size) j.block with
  | error e => exact ⟨[], hfree, Nat.zero_le _, nofun⟩
  | ok l =>
    have horder := Device.rowOrder_orders hd (Launch.forLen_ofNat_covers hsize hl)
    have hadded := Multimap.foldl_buildRow (s := ⟨_, 0, 0⟩) (d.rowOrder l keys.size) hfree
      fun i hi => horder.lt hi
    refine ⟨_, hadded.holds, ?_, fun entry hentry => ?_⟩
    · have hlen := horder.perm.length_eq
      have hle := hadded.le
      simp only [List.nil_append, List.length_take, List.length_range] at hlen ⊢
      omega
    · obtain ⟨i, -, hi⟩ := List.mem_filterMap.mp (List.mem_of_mem_take hentry)
      exact ⟨i, hi⟩

/-- So what is found in it are rows. -/
theorem tableOn_rowsBelow (keying : Keying K) {keys : Array K}
    (hsize : keys.size + UInt32.size ≤ UInt64.size) (hd : d.RunsAll) :
    (j.tableOn S keying keys d).RowsBelow keys.size := by
  obtain ⟨es, hholds, -, hrows⟩ := tableOn_holds (S := S) (j := j) keying hsize hd
  exact hholds.rowsBelow fun e he =>
    have ⟨_, hi⟩ := hrows e he
    Multimap.toNat_lt_of_rowEntry hi

/-- Without a reserved key it holds all rows. -/
theorem tableOn_stores (keying : Keying K) {keys : Array K} (hkeys : JoinKey.reserved K ∉ keys)
    (hsize : keys.size + UInt32.size ≤ UInt64.size) {l : Launch}
    (hl : Launch.forLen (UInt64.ofNat keys.size) j.block = .ok l) (hd : d.RunsAll) :
    ∃ rows, rows.Perm (List.range keys.size) ∧ (j.tableOn S keying keys d).Stores keys rows ∧
      (j.tableOn S keying keys d).keying = keying := by
  have hfree : (Multimap.free (j.tableSlots keys.size) keying : Multimap K S).Holds [] :=
    Multimap.holds_free (j.tableSlots_pos _) keying
  have hroom : keys.size ≤
      (Multimap.free (j.tableSlots keys.size) keying : Multimap K S).capacity :=
    Nat.le_trans (j.le_tableSlots _) (Nat.le_of_eq Array.size_replicate.symm)
  have hword : 0 < UInt32.size := by decide
  have horder := Device.rowOrder_orders hd (Launch.forLen_ofNat_covers hsize hl)
  obtain ⟨hreserved, hrejected⟩ := Multimap.counters hfree horder.perm hroom (by omega)
  obtain ⟨hstores, -, hkeying⟩ := Multimap.stores_of_counters hfree (fun i hi => horder.lt hi)
    (by rw [horder.perm.length_eq, List.length_range]; omega) rfl (hreserved.mpr hkeys) hrejected
  refine ⟨d.rowOrder l keys.size, horder.perm, ?_⟩
  unfold tableOn
  rw [hl]
  exact ⟨hstores, hkeying⟩

/-- With a lawful keying the numbers are those of the nested loops. -/
theorem found_loadOn (h : Accepted S left right) (hlaw : keying.Lawful)
    (hkeys : JoinKey.reserved K ∉ (j.built left right).keys)
    (hsize : (j.built left right).keys.size + UInt32.size ≤ UInt64.size) {l : Launch}
    (hl : Launch.forLen (UInt64.ofNat (j.built left right).keys.size) j.block = .ok l)
    (hd : d.RunsAll) (len : Nat) :
    (j.loadOn S keying left right d).found len =
      (NestedLoop.join j.joinType keying.equal (j.probed left right) (j.built left right)
        (min len (j.probed left right).len)).length := by
  obtain ⟨rows, hrows, hstores, hkeying⟩ := tableOn_stores (S := S) keying hkeys hsize hl hd
  have hperm := Prober.map_rowOf_emissions_perm (p := j.prober) (h.compatible j) hstores
    (by rwa [hkeying]) (Nat.le_of_lt (h.built_lt j)) hrows (Nat.min_le_right len _) (.refl _)
  rw [hkeying] at hperm
  exact (List.length_map _).symm.trans hperm.length_eq

/-- There are at most as many result rows as pairs of rows, counting a left row without a partner
as a pair. -/
theorem rows_loadOn_le (hsize : (j.built left right).len + UInt32.size ≤ UInt64.size)
    (hd : d.RunsAll) :
    (j.loadOn S keying left right d).rows ≤
      (j.probed left right).len * max (j.built left right).len 1 := by
  obtain ⟨es, hholds, hlen, -⟩ := tableOn_holds (S := S) (j := j) keying hsize hd
  have hrows := j.prober.length_emissions_le_mul (j.probed left right) (j.built left right)
    (fun key => Nat.le_trans (hholds.length_find_le key) hlen)
    (List.range (j.probed left right).len)
  rw [List.length_range] at hrows
  rw [loadOn, rows_load, rowsFound]
  exact hrows

/-- The probe of a left join finds a row for every probe row. -/
theorem rows_loadOn_pos (hleft : j.joinType = .left) (hprobe : 0 < (j.probed left right).len) :
    0 < (j.loadOn S keying left right d).rows := by
  rw [loadOn, rows_load, rowsFound]
  refine List.length_pos_iff.mpr fun hnil => ?_
  exact Prober.emitted_ne_nil hleft hprobe
    (List.flatMap_eq_nil_iff.mp hnil 0 (List.mem_range.mpr hprobe))

/-! ## A join that returns -/

theorem Prepared.exists_launch {capacity : Nat} {table : Multimap K S}
    (h : Prepared j keying left right d capacity table d') :
    ∃ l, Launch.forLen (UInt64.ofNat (j.built left right).keys.size) j.block = .ok l := by
  obtain ⟨d₁, -, hbuild⟩ := h.build
  obtain ⟨l, hl, -⟩ := Multimap.buildOrFail_table j.block_ne (capacityFor_ok h.slots) hbuild
  exact ⟨l, hl⟩

theorem Prepared.reserved_notMem {capacity : Nat} {table : Multimap K S}
    (h : Prepared j keying left right d capacity table d') (hd : d.RunsAll) :
    JoinKey.reserved K ∉ (j.built left right).keys := by
  obtain ⟨rows, horder, hstores, -, -⟩ := h.stores hd
  exact (Multimap.stored_iff (S := S) horder.perm).mp hstores.stored

/-- A join that returns has as many rows as its load has, and emits them in some order. -/
theorem Prepared.returns {capacity : Nat} {table : Multimap K S}
    (h : Prepared j keying left right d capacity table d') (hd : d.RunsAll)
    (hprobed : (j.probed left right).len + UInt32.size ≤ UInt64.size)
    (hrows : (j.loadOn S keying left right d).rows < UInt64.size) {r : JoinResult S}
    {d₁ : Device} (hr : j.execute keying left right d = .ok r d₁) :
    r.len = (j.loadOn S keying left right d).rows ∧
      r.statistics.flipped = j.flips left right ∧
      (r.statistics.finalState = .empty ↔ (j.loadOn S keying left right d).rows = 0) ∧
      ∃ taken, d.Orders (j.probed left right).len taken ∧
        r.rowPairs = ((j.prober.emissions table (j.probed left right) (j.built left right)
          taken).map Prober.rowOf).map (NestedLoop.oriented (j.flips left right)) := by
  have hp := h.probeable hd hprobed
  have hb := h.became
  have hfound := h.rowsFound_eq
  rw [← hfound] at hrows ⊢
  rw [execute_of_prepared h] at hr
  obtain ⟨d₂, hprobe, -⟩ := DeviceM.withBytes_ok hr
  obtain ⟨taken, horder, hpairs, hstate⟩ :=
    probeTable_rows hp inner_of_flips hrows (hd.became hb) hprobe
  have hempty : r.statistics.finalState = .empty ↔
      j.rowsFound table (j.probed left right) (j.built left right) = 0 := by
    rw [hstate, hpairs, List.map_eq_nil_iff, List.map_eq_nil_iff, ← List.length_eq_zero_iff,
      j.prober.length_emissions table _ _ horder]
    rfl
  refine ⟨?_, ?_, hempty, taken, horder.of_became hb, hpairs⟩
  · obtain ⟨e, d₃, hestimate, ⟨-, rfl⟩ | ⟨-, f, d₄, d₅, hb₄, hgrow, rfl⟩⟩ := probeTable_ok hprobe
    · exact (hempty.mp rfl).symm
    · obtain ⟨d₆, hb₆, hattempt⟩ := grow_ok hgrow
      have hb₃ := (Estimator.estimate_balanced _ table _ _).ok hestimate
      obtain ⟨taken', horder', hlen, -⟩ := attempt_rows hp hrows
        (hd.became (((hb.trans hb₃).trans hb₄).trans hb₆)) hattempt
      exact hlen.trans (j.prober.length_emissions table _ _ horder')
  · obtain ⟨e, d₃, -, ⟨-, rfl⟩ | ⟨-, f, d₄, d₅, -, -, rfl⟩⟩ := probeTable_ok hprobe <;> rfl

end HashJoin
end GridOps
