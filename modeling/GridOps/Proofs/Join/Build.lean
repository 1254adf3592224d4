import GridOps.Join.Build
import GridOps.Proofs.Device.Schedule
import GridOps.Proofs.Join.Walk

/-!
What a build leaves in the table.

Each thread adds the entry of its row, so a launch adds the entries of all rows in the order in
which their threads ran, as far as slots are free (`foldl_buildRow`).  The counters tell how many
rows were left out for which reason (`Holds.counts`).  A build that succeeds has met no reserved key
and refused no row, so the table then holds every row (`buildOrFail_ok`).
-/

namespace GridOps
namespace Multimap

variable {K S : Type}

/-! ## Rows and counters -/

/-- The state `s'` is `s` after `count` rows with the entries `new`, from a table that held `es`:
the entries are added as far as slots are free, and the rows that are not added are counted. -/
structure Added (count : Nat) (new es : List (K × S)) (s s' : BuildState K S) : Prop where
  le : new.length ≤ count
  holds : s'.table.Holds (es ++ new.take (s.table.capacity - es.length))
  capacity : s'.table.capacity = s.table.capacity
  keying : s'.table.keying = s.table.keying
  reserved : s'.reserved = s.reserved + UInt64.ofNat (count - new.length)
  rejected : s'.rejected = s.rejected + UInt64.ofNat (new.length - (s.table.capacity - es.length))

variable {new new' es : List (K × S)} {s s' s'' : BuildState K S}

theorem added_nil (h : s.table.Holds es) : Added 0 [] es s s where
  le := Nat.le_refl 0
  holds := by rwa [List.take_nil, List.append_nil]
  capacity := rfl
  keying := rfl
  reserved := (UInt64.add_zero _).symm
  rejected := by
    rw [List.length_nil, Nat.zero_sub]
    exact (UInt64.add_zero _).symm

theorem Added.append {count count' : Nat} (h : Added count new es s s')
    (h' : Added count' new' (es ++ new.take (s.table.capacity - es.length)) s' s'') :
    Added (count + count') (new ++ new') es s s'' := by
  have hle := h.le
  have hle' := h'.le
  have hholds := h'.holds
  have hrejected := h'.rejected
  rw [h.capacity, List.length_append, List.length_take] at hholds hrejected
  refine ⟨?_, ?_, h'.capacity.trans h.capacity, h'.keying.trans h.keying, ?_, ?_⟩
  · rw [List.length_append]
    omega
  · -- Slots are left for `new'` only if `new` was added as a whole.
    have hleft : s.table.capacity - (es.length + min (s.table.capacity - es.length) new.length) =
        s.table.capacity - es.length - new.length := by omega
    rwa [List.take_append, ← List.append_assoc, ← hleft]
  · rw [h'.reserved, h.reserved, UInt64.add_assoc, ← UInt64.ofNat_add, List.length_append]
    congr 2
    omega
  · rw [hrejected, h.rejected, UInt64.add_assoc, ← UInt64.ofNat_add, List.length_append]
    congr 2
    omega

/-- A row with a reserved key is counted. -/
theorem added_reserved (h : s.table.Holds es) :
    Added 1 [] es s { s with reserved := s.reserved + 1 } where
  le := Nat.zero_le 1
  holds := (added_nil h).holds
  capacity := rfl
  keying := rfl
  reserved := rfl
  rejected := (added_nil h).rejected

variable [JoinKey K]

/-- The row of another key is added, or counted if the table is full. -/
theorem added_key (h : s.table.Holds es) {key : K} (row : S) (hkey : key ≠ JoinKey.reserved K) :
    Added 1 [(key, row)] es s { s with
      table := (s.table.insert key row).1
      rejected := if (s.table.insert key row).2 then s.rejected else s.rejected + 1 } := by
  rcases Nat.lt_or_ge es.length s.table.capacity with hroom | hfull
  · obtain ⟨m', hinsert, hm', hcapacity, hkeying⟩ := h.insert row hkey hroom
    have hone : 1 ≤ s.table.capacity - es.length := by omega
    rw [hinsert]
    refine ⟨Nat.le_refl 1, ?_, hcapacity, hkeying, (UInt64.add_zero _).symm, ?_⟩
    · rwa [List.take_of_length_le hone]
    · rw [List.length_singleton, Nat.sub_eq_zero_of_le hone]
      exact (UInt64.add_zero _).symm
  · have hnone : s.table.capacity - es.length = 0 := by omega
    rw [h.insert_full hfull]
    refine ⟨Nat.le_refl 1, ?_, rfl, rfl, (UInt64.add_zero _).symm, ?_⟩
    · rwa [hnone, List.take_zero, List.append_nil]
    · rw [hnone]
      rfl

variable [Word S] {keys : Array K}

/-! ## One row -/

/-- What the thread of row `i` does. -/
def buildRow (keys : Array K) (i : Nat) (s : BuildState K S) : BuildState K S :=
  match keys[i]? with
  | none => s
  | some key =>
    if key = JoinKey.reserved K then { s with reserved := s.reserved + 1 }
    else
      { s with
        table := (s.table.insert key (Word.ofNat i)).1
        rejected := if (s.table.insert key (Word.ofNat i)).2 then s.rejected else s.rejected + 1 }

/-- The entry that row `i` is stored as: none for a reserved key. -/
def rowEntry (keys : Array K) (i : Nat) : Option (K × S) :=
  match keys[i]? with
  | some key => if key = JoinKey.reserved K then none else some (key, Word.ofNat i)
  | none => none

theorem buildKernel_eq (keys : Array K) (t : Thread) (s : BuildState K S) :
    buildKernel keys t s =
      .ok () (if t.global < keys.size then buildRow keys t.global s else s) := by
  unfold buildKernel buildRow
  by_cases ht : t.global < keys.size
  · rw [if_pos ht, Array.getElem?_eq_getElem ht]
    dsimp only
    split
    · rfl
    · obtain ⟨table, reserved, rejected⟩ := s
      dsimp only
      cases table.insert keys[t.global] (Word.ofNat t.global) with
      | mk table accepted => cases accepted <;> rfl
  · rw [if_neg ht, Array.getElem?_eq_none (Nat.le_of_not_lt ht)]

theorem added_buildRow (h : s.table.Holds es) {i : Nat} (hi : i < keys.size) :
    Added 1 ([i].filterMap (rowEntry keys)) es s (buildRow keys i s) := by
  rw [List.filterMap_cons, List.filterMap_nil, rowEntry, buildRow, Array.getElem?_eq_getElem hi]
  dsimp only
  by_cases hkey : keys[i] = JoinKey.reserved K
  · rw [if_pos hkey, if_pos hkey]
    exact added_reserved h
  · rw [if_neg hkey, if_neg hkey]
    exact added_key h (Word.ofNat i) hkey

/-! ## All rows -/

theorem foldl_buildRow (rows : List Nat) (h : s.table.Holds es)
    (hrows : ∀ i ∈ rows, i < keys.size) :
    Added rows.length (rows.filterMap (rowEntry keys)) es s
      (rows.foldl (fun s i => buildRow keys i s) s) := by
  induction rows generalizing s es with
  | nil => exact added_nil h
  | cons i rest ih =>
    have hfirst := added_buildRow h (hrows i List.mem_cons_self)
    have hrest := ih hfirst.holds fun j hj => hrows j (List.mem_cons_of_mem _ hj)
    rw [List.length_cons, Nat.add_comm, ← List.singleton_append, List.filterMap_append]
    exact hfirst.append hrest

/-! ## What the counters count -/

section Counts

variable {rows : List Nat}

/-- Those of the rows whose keys are not reserved. -/
def storable (keys : Array K) (rows : List Nat) : List Nat :=
  rows.filter fun i => (keys[i]?).any (· ≠ JoinKey.reserved K)

theorem mem_storable {i : Nat} : i ∈ storable keys rows ↔
    i ∈ rows ∧ ∃ key, keys[i]? = some key ∧ key ≠ JoinKey.reserved K := by
  simp [storable, Option.any_eq_true]

/-- The rows with reserved keys are those that are not storable. -/
theorem length_storable (hrows : rows.Perm (List.range keys.size)) :
    (storable keys rows).length = keys.size - keys.toList.count (JoinKey.reserved K) := by
  have hall : (List.range keys.size).map (fun i => keys[i]?) = keys.toList.map some := by
    refine List.ext_getElem? fun i => ?_
    by_cases hi : i < keys.size <;> simp [hi]
  have hcount : (storable keys rows).length =
      keys.toList.countP (fun key => decide (key ≠ JoinKey.reserved K)) := by
    rw [storable, ← List.countP_eq_length_filter, hrows.countP_eq]
    have hmap := List.countP_map (p := Option.any (· ≠ JoinKey.reserved K))
      (f := fun i => keys[i]?) (l := List.range keys.size)
    rw [hall, List.countP_map] at hmap
    exact hmap.symm
  have hsplit := List.length_eq_countP_add_countP
    (fun key => decide (key ≠ JoinKey.reserved K)) (l := keys.toList)
  have hreserved : keys.toList.count (JoinKey.reserved K) =
      keys.toList.countP (fun key => decide (¬decide (key ≠ JoinKey.reserved K) = true)) := by
    rw [List.count]
    refine List.countP_congr fun key _ => ?_
    simp
  rw [hcount, hreserved, ← Array.length_toList]
  omega

theorem storable_eq (keys : Array K) (rows : List Nat) :
    storable keys rows = rows.filter fun i => (rowEntry (S := S) keys i).isSome := by
  refine List.filter_congr fun i _ => ?_
  unfold rowEntry
  cases keys[i]? with
  | none => rfl
  | some key => by_cases hkey : key = JoinKey.reserved K <;> simp [hkey]

theorem length_filterMap_rowEntry (keys : Array K) (rows : List Nat) :
    (rows.filterMap (rowEntry (S := S) keys)).length = (storable keys rows).length := by
  rw [List.length_filterMap_eq_countP, List.countP_eq_length_filter, ← storable_eq]

/-- The counters of a build tell the rows with reserved keys and those that found no free slot. -/
theorem Holds.counts {m : Multimap K S} (h : m.Holds es) (hrows : rows.Perm (List.range keys.size))
    (hsize : keys.size < UInt64.size) :
    (rows.foldl (fun s i => buildRow keys i s) ⟨m, 0, 0⟩).reserved.toNat =
      keys.toList.count (JoinKey.reserved K) ∧
    (rows.foldl (fun s i => buildRow keys i s) ⟨m, 0, 0⟩).rejected.toNat =
      keys.size - keys.toList.count (JoinKey.reserved K) - (m.capacity - m.len) := by
  have hlen := hrows.length_eq
  rw [List.length_range] at hlen
  have hadded := foldl_buildRow (s := ⟨m, 0, 0⟩) rows h fun i hi =>
    List.mem_range.mp (hrows.mem_iff.mp hi)
  have hnew := length_filterMap_rowEntry (S := S) keys rows
  rw [length_storable hrows] at hnew
  have hcount := List.count_le_length (a := JoinKey.reserved K) (l := keys.toList)
  rw [Array.length_toList] at hcount
  have hheld : m.len = es.length := h.perm.length_eq
  constructor
  · rw [hadded.reserved, hnew, UInt64.zero_add, UInt64.toNat_ofNat_of_lt' (by omega)]
    omega
  · rw [hadded.rejected, hnew, UInt64.zero_add, UInt64.toNat_ofNat_of_lt' (by omega), hheld]

end Counts

/-! ## A whole build -/

theorem fill_balanced (m : Multimap K S) (block : UInt32) (keys : Array K) :
    DeviceM.Balanced (m.fill block keys) fun _ => 0 :=
  (DeviceM.Balanced.ofExcept _).bind fun l =>
    DeviceM.withCounter_balanced (DeviceM.withCounter_balanced
      (DeviceM.run_balanced "build_hash_table" l (buildKernel keys) ⟨m, 0, 0⟩))

theorem build_became (m : Multimap K S) (block : UInt32) (keys : Array K) (d : Device) :
    d.Became (m.build block keys d).2.2 0 := by
  unfold build
  split
  · exact .refl d
  · split
    · exact .refl d
    · cases hfill : m.fill block keys d with
      | error e d' => exact (fill_balanced m block keys).error hfill
      | ok outcome d' =>
        have hbecame := (fill_balanced m block keys).ok hfill
        obtain ⟨s, _ | e⟩ := outcome <;> exact hbecame

theorem buildOrFail_balanced (m : Multimap K S) (block : UInt32) (keys : Array K) :
    DeviceM.Balanced (m.buildOrFail block keys) fun _ => 0 where
  ok := by
    intro d m' d' h
    have hbecame := build_became m block keys d
    unfold buildOrFail at h
    split at h <;> rename_i hb <;> cases h
    rw [hb] at hbecame
    exact hbecame
  error := by
    intro d e d' h
    have hbecame := build_became m block keys d
    unfold buildOrFail at h
    split at h <;> rename_i hb <;> cases h
    rw [hb] at hbecame
    exact hbecame

/-- The launch of a build adds the rows in the order in which its threads run. -/
theorem fill_ok {m : Multimap K S} {block : UInt32} {keys : Array K} {d d' : Device}
    {outcome : Outcome (BuildState K S)} (hd : d.RunsAll)
    (hsize : keys.size + UInt32.size ≤ UInt64.size) (h : m.fill block keys d = .ok outcome d') :
    ∃ rows, d.Orders keys.size rows ∧
      outcome = ⟨rows.foldl (fun s i => buildRow keys i s) ⟨m, 0, 0⟩, none⟩ := by
  obtain ⟨l, d₁, hl, h⟩ := DeviceM.bind_ok h
  have hb₁ := (DeviceM.Balanced.ofExcept _).ok hl
  obtain ⟨d₂, d₃, hb₂, h, -⟩ := DeviceM.withCounter_ok h
  obtain ⟨d₄, d₅, hb₃, h, -⟩ := DeviceM.withCounter_ok h
  have hb := (hb₁.trans hb₂).trans hb₃
  have hcovers := Launch.forLen_ofNat_covers hsize (DeviceM.ofExcept_ok hl)
  refine ⟨d₄.rowOrder l keys.size,
    (Device.rowOrder_orders (hd.became hb) hcovers).of_became hb, ?_⟩
  have hrun := Device.run_rows (d := d₄) "build_hash_table" (P := fun _ => True) hcovers
    (fun t s _ => buildKernel_eq keys t s) (fun _ _ _ _ => trivial) (s := ⟨m, 0, 0⟩) trivial
  rw [hrun] at h
  cases h
  rfl

/-- The table holds the rows of `keys`, added in the order `rows`, and no key is reserved. -/
structure Stores (m : Multimap K S) (keys : Array K) (rows : List Nat) : Prop where
  holds : m.Holds (rows.filterMap (rowEntry keys))
  stored : ∀ i ∈ rows, (rowEntry (S := S) keys i).isSome

/-- Rows that left both counters at zero are all stored. -/
theorem stores_of_counters {m : Multimap K S} {keys : Array K} {rows : List Nat}
    {s : BuildState K S} (hm : m.Holds []) (hrows : ∀ i ∈ rows, i < keys.size)
    (hlen : rows.length < UInt64.size)
    (hs : rows.foldl (fun s i => buildRow keys i s) ⟨m, 0, 0⟩ = s) (hreserved : s.reserved = 0)
    (hrejected : s.rejected = 0) :
    s.table.Stores keys rows ∧ s.table.capacity = m.capacity ∧ s.table.keying = m.keying := by
  have hadded : Added rows.length (rows.filterMap (rowEntry keys)) [] ⟨m, 0, 0⟩ s :=
    hs ▸ foldl_buildRow rows hm hrows
  have hle := List.length_filterMap_le (rowEntry (S := S) keys) rows
  have hzero : ∀ n : Nat, n < UInt64.size → 0 + UInt64.ofNat n = 0 → n = 0 := by
    intro n hn h
    rw [UInt64.zero_add] at h
    have hnat := congrArg UInt64.toNat h
    rwa [UInt64.toNat_ofNat_of_lt' hn] at hnat
  have hall : rows.length - (rows.filterMap (rowEntry (S := S) keys)).length = 0 :=
    hzero _ (by omega) (hadded.reserved.symm.trans hreserved)
  have hroom : (rows.filterMap (rowEntry (S := S) keys)).length - (m.capacity - 0) = 0 :=
    hzero _ (by omega) (hadded.rejected.symm.trans hrejected)
  refine ⟨⟨?_, fun i hi => ?_⟩, hadded.capacity, hadded.keying⟩
  · have hholds := hadded.holds
    rw [List.nil_append, List.take_of_length_le] at hholds
    · exact hholds
    · show _ ≤ m.capacity - 0
      omega
  · exact List.filterMap_length_eq_length.mp (by omega) i hi

/-- A build that succeeds has stored every row. -/
theorem buildOrFail_ok {m m' : Multimap K S} {block : UInt32} {keys : Array K} {d d' : Device}
    (hd : d.RunsAll) (hm : m.Holds []) (hsize : keys.size + UInt32.size ≤ UInt64.size)
    (h : m.buildOrFail block keys d = .ok m' d') :
    ∃ rows, d.Orders keys.size rows ∧ m'.Stores keys rows ∧ m'.capacity = m.capacity ∧
      m'.keying = m.keying := by
  unfold buildOrFail build at h
  split at h <;> rename_i hbuild <;> cases h
  split at hbuild
  · cases hbuild
  split at hbuild
  · rename_i hempty
    cases hbuild
    have hzero : keys.size = 0 := by simpa using hempty
    refine ⟨[], ⟨by rw [hzero]; rfl, fun _ => by rw [hzero]; rfl⟩, ⟨hm, by simp⟩, rfl, rfl⟩
  · cases hfill : m.fill block keys d with
    | error e d₁ =>
      rw [hfill] at hbuild
      cases hbuild
    | ok outcome d₁ =>
      obtain ⟨rows, horder, rfl⟩ := fill_ok hd hsize hfill
      rw [hfill] at hbuild
      dsimp only at hbuild
      have hlen := horder.perm.length_eq
      rw [List.length_range] at hlen
      have hblock : UInt32.size = 4294967296 := rfl
      split at hbuild
      · cases hbuild
      rename_i hreserved
      split at hbuild
      · cases hbuild
      rename_i hrejected
      cases hbuild
      obtain ⟨hstores, hcap, hkeying⟩ := stores_of_counters hm (fun i hi => horder.lt hi)
        (by omega) rfl (not_not.mp hreserved) (not_not.mp hrejected)
      exact ⟨rows, horder, hstores, hcap, hkeying⟩

/-- A look-up finds the rows whose keys are equal to its key, in the order in which they were
added. -/
theorem Stores.find {m : Multimap K S} {keys : Array K} {rows : List Nat}
    (h : m.Stores keys rows) (hlaw : m.keying.Lawful) (key : K) :
    m.find key = (rows.filter fun i => (keys[i]?).any (m.keying.equal · key)).map Word.ofNat := by
  rw [h.holds.find hlaw]
  have hstored := h.stored
  clear h
  induction rows with
  | nil => rfl
  | cons i rest ih =>
    have hrest := ih fun j hj => hstored j (List.mem_cons_of_mem _ hj)
    have hi := hstored i List.mem_cons_self
    unfold rowEntry at hi
    split at hi
    · rename_i k hk
      split at hi
      · cases hi
      · rename_i hkey
        have hentry : rowEntry (S := S) keys i = some (k, Word.ofNat i) := by
          rw [rowEntry, hk]
          exact if_neg hkey
        rw [List.filterMap_cons_some hentry, List.filter_cons, List.filter_cons, hk]
        dsimp only [Option.any_some]
        split
        · rw [List.map_cons, List.map_cons, hrest]
        · exact hrest
    · cases hi

/-- A row that its type cannot number is stored under a smaller number, which is a row too. -/
theorem toNat_lt_of_rowEntry {keys : Array K} {i : Nat} {entry : K × S}
    (h : rowEntry keys i = some entry) : Word.toNat entry.2 < keys.size := by
  unfold rowEntry at h
  split at h
  · rename_i key hkey
    have hlt : i < keys.size := (Array.getElem?_eq_some_iff.mp hkey).1
    split at h
    · cases h
    · cases h
      rw [Word.toNat_ofNat]
      exact Nat.lt_of_le_of_lt (Nat.mod_le i _) hlt
  · cases h

end Multimap
end GridOps
