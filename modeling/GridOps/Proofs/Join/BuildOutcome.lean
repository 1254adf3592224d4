import GridOps.Proofs.Join.Entries
import GridOps.Proofs.Join.Outcome

/-!
How a build ends, and what it leaves in the table.

A build runs to its end also when it meets reserved keys or when the table fills up, and is judged
by its two counters afterwards.  So it leaves the entries of as many rows as there were free slots
for, also if it fails (`build_outcome`).  What the table held before stays in its slots.
-/

namespace GridOps
namespace Multimap

variable {K S : Type} [JoinKey K] {m : Multimap K S} {es es' : List (K × S)}

/-! ## Inserts into a table that has entries -/

/-- An insert takes no slot from another entry. -/
theorem insert_keeps {key : K} {row : S} {p : Nat} {e : K × S} (h : m.slots[p]? = some (some e)) :
    (m.insert key row).1.slots[p]? = some (some e) := by
  unfold insert
  cases hfirst : m.firstFree? m.capacity (m.home key) with
  | none => exact h
  | some q =>
    dsimp only
    by_cases hkey : key = JoinKey.reserved K
    · rwa [if_pos hkey]
    · rw [if_neg hkey]
      have hpos : 0 < m.capacity := Nat.lt_of_le_of_lt (Nat.zero_le p) (lt_capacity h)
      obtain ⟨-, -, -, hfree, -⟩ := firstFree?_eq_some (Nat.le_refl _) (home_lt hpos key) hfirst
      have hne : q ≠ p := fun hqp => by cases (hqp ▸ hfree).symm.trans h
      exact (slots_put (lt_capacity hfree) (key, row) p).trans ((if_neg hne).trans h)

theorem insertAll_keeps {p : Nat} {e : K × S} (h : m.slots[p]? = some (some e)) :
    (m.insertAll es).slots[p]? = some (some e) := by
  induction es generalizing m with
  | nil => exact h
  | cons e' es ih => exact ih (insert_keeps h)

/-- Inserts that come when the table is full change nothing. -/
theorem Holds.insertAll_take (h : m.Holds es) (hkeys : ∀ e ∈ es', e.1 ≠ JoinKey.reserved K) :
    m.insertAll (es'.take (m.capacity - es.length)) = m.insertAll es' := by
  induction es' generalizing m es with
  | nil => rw [List.take_nil]
  | cons e es' ih =>
    obtain ⟨hkey, hkeys⟩ := List.forall_mem_cons.mp hkeys
    rcases h.insert_cases e.2 hkey with ⟨hroom, m', hinsert, hm', hcapacity, -⟩ | ⟨hfull, hinsert⟩
    · have hleft : m.capacity - es.length = m.capacity - (es.length + 1) + 1 := by omega
      have hrest := ih hm' hkeys
      rw [hcapacity, List.length_append, List.length_singleton] at hrest
      rw [hleft, List.take_succ_cons]
      show (m.insert e.1 e.2).1.insertAll _ = (m.insert e.1 e.2).1.insertAll es'
      rw [hinsert]
      exact hrest
    · have hnone : m.capacity - es.length = 0 := Nat.sub_eq_zero_of_le hfull
      have hrest := ih h hkeys
      rw [hnone, List.take_zero] at hrest ⊢
      show _ = (m.insert e.1 e.2).1.insertAll es'
      rw [hinsert]
      exact hrest

/-! ## Rows with keys of their own -/

theorem filterMap_take_filter {α β : Type} (f : α → Option β) (l : List α) (n : Nat) :
    ((l.filter fun a => (f a).isSome).take n).filterMap f = (l.filterMap f).take n := by
  induction l generalizing n with
  | nil => simp
  | cons a rest ih =>
    cases hfa : f a with
    | none =>
      rw [List.filter_cons_of_neg (by simp [hfa]), List.filterMap_cons_none hfa]
      exact ih n
    | some b =>
      rw [List.filter_cons_of_pos (by simp [hfa]), List.filterMap_cons_some hfa]
      cases n with
      | zero => rfl
      | succ n => rw [List.take_succ_cons, List.take_succ_cons, List.filterMap_cons_some hfa, ih n]

variable [Word S] {keys : Array K} {rows : List Nat}

/-- The entries of the first storable rows are the first entries. -/
theorem filterMap_take_storable (keys : Array K) (rows : List Nat) (n : Nat) :
    ((storable keys rows).take n).filterMap (rowEntry (S := S) keys) =
      (rows.filterMap (rowEntry keys)).take n := by
  rw [storable_eq (S := S), filterMap_take_filter]

theorem ne_reserved_of_mem {e : K × S} (h : e ∈ rows.filterMap (rowEntry keys)) :
    e.1 ≠ JoinKey.reserved K := by
  obtain ⟨i, -, hi⟩ := List.mem_filterMap.mp h
  unfold rowEntry at hi
  split at hi
  · split at hi
    · cases hi
    · rename_i hkey
      cases hi
      exact hkey
  · cases hi

/-- The rows of a launch are inserted one after another. -/
theorem foldl_buildRow_table (rows : List Nat) (s : BuildState K S) :
    (rows.foldl (fun s i => buildRow keys i s) s).table =
      s.table.insertAll (rows.filterMap (rowEntry keys)) := by
  induction rows generalizing s with
  | nil => rfl
  | cons i rest ih =>
    rw [List.foldl_cons, ih, ← List.singleton_append, List.filterMap_append, insertAll_append]
    congr 1
    rw [buildRow, List.filterMap_cons, List.filterMap_nil, rowEntry]
    cases keys[i]? with
    | none => rfl
    | some key => by_cases hkey : key = JoinKey.reserved K <;> simp [hkey, insertAll]

/-! ## What is added -/

/-- The table `m'` is `m` with the entries of these rows of `keys`: each row once, none with a
reserved key, and what `m` held where it was. -/
structure Gains (m : Multimap K S) (keys : Array K) (rows : List Nat) (m' : Multimap K S) :
    Prop where
  distinct : rows.Nodup
  stored : ∀ i ∈ rows, ∃ key, keys[i]? = some key ∧ key ≠ JoinKey.reserved K ∧
    rowEntry keys i = some (key, (Word.ofNat i : S))
  inserted : m' = m.insertAll (rows.filterMap (rowEntry keys))
  entries : m'.entries.Perm (m.entries ++ rows.filterMap (rowEntry keys))
  kept : ∀ (p : Nat) (e : K × S), m.slots[p]? = some (some e) → m'.slots[p]? = some (some e)

/-- Rows that are taken up one after another, as far as there are free slots. -/
theorem Holds.gains (h : m.Holds es) (hdistinct : rows.Nodup) :
    m.Gains keys ((storable keys rows).take (m.capacity - m.len))
      (m.insertAll (rows.filterMap (rowEntry keys))) := by
  have hkeys : ∀ e ∈ rows.filterMap (rowEntry (S := S) keys), e.1 ≠ JoinKey.reserved K :=
    fun _ => ne_reserved_of_mem
  have hadded :
      ((storable keys rows).take (m.capacity - m.len)).filterMap (rowEntry (S := S) keys) =
      (rows.filterMap (rowEntry keys)).take (m.capacity - es.length) := by
    rw [filterMap_take_storable, len, h.perm.length_eq]
  constructor
  case distinct => exact (hdistinct.filter _).sublist (List.take_sublist _ _)
  case stored =>
    intro i hi
    obtain ⟨-, key, hkey, hne⟩ := mem_storable.mp (List.mem_of_mem_take hi)
    refine ⟨key, hkey, hne, ?_⟩
    rw [rowEntry, hkey]
    exact if_neg hne
  case inserted => rw [hadded, h.insertAll_take hkeys]
  case entries =>
    rw [hadded]
    exact (h.insertAll hkeys).1.perm.trans (h.perm.symm.append_right _)
  case kept => exact fun _ _ => insertAll_keeps

/-! ## The outcome -/

section Outcome

variable {block : UInt32} {d d' : Device}

/-- What a build makes of its counters. -/
theorem build_of_fill (hlen : keys.size < Word.toNat (Word.top S)) (hnonempty : keys.size ≠ 0)
    {s : BuildState K S} (h : m.fill block keys d = .ok ⟨s, none⟩ d') :
    m.build block keys d =
      (if s.reserved.toNat ≠ 0 then
        .error (.reservedKeys s.reserved.toNat (JoinKey.type K).largest)
      else if s.rejected.toNat ≠ 0 then .error (.tableFull s.table.capacity)
      else .ok (), s.table, d') := by
  have hzero : ∀ n : UInt64, n.toNat ≠ 0 ↔ n ≠ 0 := fun n =>
    not_congr (UInt64.toNat_inj (b := 0))
  unfold build
  rw [if_neg (Nat.not_le_of_lt hlen), if_neg (by simpa using hnonempty), h]
  simp only [hzero]

/-- A build that got its counters: it fails if there are reserved keys, and else if there are more
rows than free slots. -/
theorem Holds.build_of_counters (h : m.Holds es) (hlen : keys.size < Word.toNat (Word.top S))
    (hsize : keys.size + UInt32.size ≤ UInt64.size) (hd : d.RunsAll)
    (hfill : keys.size = 0 ∨ ∃ outcome d', m.fill block keys d = .ok outcome d') :
    ∃ rows d', d.Orders keys.size rows ∧ m.build block keys d =
      (if keys.toList.count (JoinKey.reserved K) ≠ 0 then
        .error (.reservedKeys (keys.toList.count (JoinKey.reserved K)) (JoinKey.type K).largest)
      else if m.capacity - m.len < keys.size - keys.toList.count (JoinKey.reserved K) then
        .error (.tableFull m.capacity)
      else .ok (), m.insertAll (rows.filterMap (rowEntry keys)), d') := by
  by_cases hempty : keys.size = 0
  · obtain rfl : keys = #[] := Array.eq_empty_of_size_eq_zero hempty
    refine ⟨[], d, ⟨.refl _, fun _ => rfl⟩, ?_⟩
    have hnone : (#[] : Array K).isEmpty = true := rfl
    unfold build
    rw [if_neg (Nat.not_le_of_lt hlen), if_pos hnone]
    simp
  · obtain ⟨outcome, d', hfill⟩ := hfill.resolve_left hempty
    obtain ⟨rows, horder, rfl⟩ := fill_ok hd hsize hfill
    have hword : 0 < UInt32.size := by decide
    obtain ⟨hreserved, hrejected⟩ := h.counts horder.perm (by omega)
    have hcapacity : (m.insertAll (rows.filterMap (rowEntry keys))).capacity = m.capacity :=
      (h.insertAll fun _ => ne_reserved_of_mem).2.1
    refine ⟨rows, d', horder, ?_⟩
    rw [build_of_fill hlen hempty hfill, hreserved, hrejected, foldl_buildRow_table, hcapacity]
    simp only [Nat.sub_ne_zero_iff_lt]

/-- How a build ends, for a table of any capacity with any entries that it accepted before.  Without
memory for the two counters it changes nothing.  Otherwise it fails if there are reserved keys, and
else if there are more rows than free slots.  In all three cases it adds the entries of as many of
the other rows as there are free slots for: each once, on one worker those of the first rows, and
what the table held stays in its slots. -/
theorem build_outcome {capacity : Nat} {keying : Keying K} {earlier : List (K × S)}
    (hpos : 0 < capacity) (hearlier : ∀ e ∈ earlier, e.1 ≠ JoinKey.reserved K)
    (hm : m = (free capacity keying).insertAll earlier) (hword : 4 ≤ Word.bytes S)
    (hblock : block ≠ 0) (hkeys : keys.size < UInt32.size - 1) (hd : d.RunsAll) :
    (keys.size ≠ 0 → d.available < 2 * DeviceM.counterBytes →
      ∃ e d', m.build block keys d = (.error e, m, d') ∧ e.kind = .outOfMemory) ∧
    (keys.size = 0 ∨ 2 * DeviceM.counterBytes ≤ d.available →
      ∃ rows m' d', m.build block keys d =
          (if keys.toList.count (JoinKey.reserved K) ≠ 0 then
            .error (.reservedKeys (keys.toList.count (JoinKey.reserved K)) (JoinKey.type K).largest)
          else if m.capacity - m.len < keys.size - keys.toList.count (JoinKey.reserved K) then
            .error (.tableFull m.capacity)
          else .ok (), m', d') ∧
        m.Gains keys rows m' ∧
        rows.length =
          min (keys.size - keys.toList.count (JoinKey.reserved K)) (m.capacity - m.len) ∧
        (d.OneWorker → rows =
          (storable keys (List.range keys.size)).take (m.capacity - m.len))) := by
  have hholds := (holds_free hpos keying).insertAll hearlier
  rw [← hm] at hholds
  obtain ⟨hholds, -, -⟩ := hholds
  have hsize32 : UInt32.size = 4294967296 := rfl
  have hsize64 : UInt64.size = 18446744073709551616 := rfl
  have hsize : keys.size + UInt32.size ≤ UInt64.size := by omega
  have hlen : keys.size < Word.toNat (Word.top S) :=
    Nat.lt_of_lt_of_le hkeys (Word.size_pred_le_top hword)
  have hfollows := fill_follows hblock m hsize d
  have hneeds : (HashJoin.fillPlan block keys.size).Needs (2 * DeviceM.counterBytes) () := by
    refine HashJoin.fillPlan_needs (Nat.le_trans (Nat.le_of_lt hkeys) ?_)
    exact Nat.le_mul_of_pos_right _ (Launch.toNat_pos hblock)
  refine ⟨fun hnonempty hmemory => ?_, fun hmemory => ?_⟩
  · obtain ⟨e, d', hfill, hkind⟩ := DeviceM.ending_error (hfollows.trans (hneeds.error hmemory))
    refine ⟨.device e, d', ?_, hkind⟩
    unfold build
    rw [if_neg (Nat.not_le_of_lt hlen), if_neg (by simpa using hnonempty), hfill]
  · have hfill : keys.size = 0 ∨ ∃ outcome d', m.fill block keys d = .ok outcome d' := by
      refine hmemory.imp_right fun hmemory => ?_
      obtain ⟨outcome, d', hfill, -⟩ := DeviceM.ending_ok (hfollows.trans (hneeds.ok hmemory))
      exact ⟨outcome, d', hfill⟩
    obtain ⟨rows, d', horder, hbuild⟩ := hholds.build_of_counters hlen hsize hd hfill
    have hdistinct : rows.Nodup := horder.perm.nodup_iff.mpr List.nodup_range
    refine ⟨_, _, d', hbuild, hholds.gains hdistinct, ?_, fun hone => ?_⟩
    · rw [List.length_take, length_storable horder.perm, Nat.min_comm]
    · rw [horder.ascending hone]

/-- Without reserved keys no thread counts one. -/
theorem fill_reserved (h : JoinKey.reserved K ∉ keys) {s : BuildState K S}
    (hfill : m.fill block keys d = .ok ⟨s, none⟩ d') : s.reserved = 0 := by
  obtain ⟨l, d₁, -, hfill⟩ := DeviceM.bind_ok hfill
  obtain ⟨d₂, d₃, -, hfill, -⟩ := DeviceM.withCounter_ok hfill
  obtain ⟨d₄, d₅, -, hfill, -⟩ := DeviceM.withCounter_ok hfill
  have hlaunch : DeviceM.launch "build_hash_table" l (buildKernel keys) ⟨m, 0, 0⟩ d₄ =
      .ok s d₅ := by
    unfold DeviceM.launch
    split <;> simp_all
  refine Device.launch_keeps (P := fun s => s.reserved = 0) (fun t s s' hs hrun => ?_) rfl hlaunch
  rw [buildKernel_eq] at hrun
  cases hrun
  split
  · rename_i ht
    have hne : keys[t.global] ≠ JoinKey.reserved K := fun heq => h (heq ▸ Array.getElem_mem ht)
    rw [buildRow, Array.getElem?_eq_getElem ht]
    dsimp only
    rwa [if_neg hne]
  · exact hs

/-- A build without reserved keys, of any table and on any device, is not refused for them. -/
theorem build_ne_reservedKeys (h : JoinKey.reserved K ∉ keys) (m : Multimap K S) (block : UInt32)
    (d : Device) (count : Nat) (key : Int) :
    (m.build block keys d).1 ≠ .error (.reservedKeys count key) := by
  unfold build
  split
  · simp
  split
  · simp
  split
  · simp
  · simp
  · rename_i s d' hfill
    dsimp only
    rw [if_neg (not_not_intro (fill_reserved h hfill))]
    split <;> simp

end Outcome

/-- A table of three slots, one of them taken. -/
def partTaken : Multimap UInt32 UInt32 := (free 3 wrappedKeying).insertAll [(7, 9)]

/-- Two of four rows find a slot, and the row between them has the reserved key. -/
theorem build_outcome_sample :
    (∃ e d', partTaken.build 2 #[5, 4294967295, 8, 5, 7] (Device.forwards 15) =
      (.error e, partTaken, d') ∧ e.kind = .outOfMemory) ∧
    ∃ m' d', partTaken.build 2 #[5, 4294967295, 8, 5, 7] (Device.forwards 16) =
        (.error (.reservedKeys 1 4294967295), m', d') ∧
      partTaken.Gains #[5, 4294967295, 8, 5, 7] [0, 2] m' := by
  have hearlier : ∀ e ∈ [((7 : UInt32), (9 : UInt32))], e.1 ≠ JoinKey.reserved UInt32 :=
    List.forall_iff_forall_mem.mp (by decide)
  have hkeys : (#[5, 4294967295, 8, 5, 7] : Array UInt32).size < UInt32.size - 1 := by decide
  have hblock : (2 : UInt32) ≠ 0 := by decide
  have houtcome := fun bytes => build_outcome (m := partTaken) (by decide) hearlier rfl (by decide)
    hblock hkeys (Device.forwards_oneWorker bytes).runsAll
  refine ⟨(houtcome 15).1 (by decide) (by decide), ?_⟩
  obtain ⟨rows, m', d', hbuild, hgains, -, hone⟩ := (houtcome 16).2 (Or.inr (by decide))
  have hrows : rows = [0, 2] := (hone (Device.forwards_oneWorker 16)).trans (by decide)
  rw [if_pos (by decide)] at hbuild
  exact ⟨m', d', hbuild, hrows ▸ hgains⟩

end Multimap
end GridOps
