import GridOps.Proofs.Join.Outcome

/-!
The same table with row numbers of another width.

`Multimap.resize T` writes the row of every entry as a word of the type `T`.  The keys stay in their
slots, so inserting and looking up commute with it, and so do a build and a probe as long as words
of both types hold the row numbers (`tableOn_resize`, `map_rowOf_emissions_resize`).  What a probe
emits is the same, read as row numbers and with none for the largest word of either type.
-/

namespace GridOps

/-- The same number as a word of another type. -/
def Word.resize {S : Type} (T : Type) [Word S] [Word T] (a : S) : T := Word.ofNat (Word.toNat a)

theorem Word.resize_ofNat {S T : Type} [Word S] [Word T] {n : Nat} (h : n < Word.size S) :
    Word.resize T (Word.ofNat n : S) = Word.ofNat n := by
  rw [resize, Word.toNat_ofNat, Nat.mod_eq_of_lt h]

theorem Word.toNat_resize {S T : Type} [Word S] [Word T] {a : S} (h : Word.toNat a < Word.size T) :
    Word.toNat (Word.resize T a) = Word.toNat a := by
  rw [resize, Word.toNat_ofNat, Nat.mod_eq_of_lt h]

namespace Multimap

variable {K S T : Type} [Word S] [Word T]

def resize (T : Type) [Word T] (m : Multimap K S) : Multimap K T :=
  ⟨m.slots.map (Option.map fun entry => (entry.1, Word.resize T entry.2)), m.keying⟩

variable {m : Multimap K S}

theorem resize_free (capacity : Nat) (keying : Keying K) :
    (free capacity keying : Multimap K S).resize T = free capacity keying := by
  rw [resize, free, Array.map_replicate]
  rfl

theorem capacity_resize (m : Multimap K S) : (m.resize T).capacity = m.capacity := Array.size_map

theorem getElem?_slots_resize (m : Multimap K S) (i : Nat) :
    (m.resize T).slots[i]? =
      m.slots[i]?.map (Option.map fun entry => (entry.1, Word.resize T entry.2)) :=
  Array.getElem?_map

theorem home_resize (m : Multimap K S) (key : K) : (m.resize T).home key = m.home key := by
  rw [home, capacity_resize]
  rfl

theorem after_resize (m : Multimap K S) (i : Nat) : (m.resize T).after i = m.after i := by
  rw [after, capacity_resize]
  rfl

theorem firstFree?_resize (m : Multimap K S) (n i : Nat) :
    (m.resize T).firstFree? n i = m.firstFree? n i := by
  induction n generalizing i with
  | zero => rfl
  | succ n ih =>
    rw [firstFree?, firstFree?, getElem?_slots_resize, after_resize]
    rcases m.slots[i]? with _ | _ | entry
    · exact ih _
    · rfl
    · exact ih _

theorem rowsFrom_resize (m : Multimap K S) (key : K) (n i : Nat) :
    (m.resize T).rowsFrom key n i = (m.rowsFrom key n i).map (Word.resize T) := by
  induction n generalizing i with
  | zero => rfl
  | succ n ih =>
    rw [rowsFrom, rowsFrom, getElem?_slots_resize, after_resize]
    rcases m.slots[i]? with _ | _ | entry
    · rfl
    · rfl
    · show (if m.keying.equal entry.1 key then _ else _) =
        List.map _ (if m.keying.equal entry.1 key then _ else _)
      rw [ih]
      split <;> rfl

theorem find_resize (m : Multimap K S) (key : K) :
    (m.resize T).find key = (m.find key).map (Word.resize T) := by
  rw [find, capacity_resize, home_resize, rowsFrom_resize]
  rfl

variable [JoinKey K]

theorem insert_resize (m : Multimap K S) (key : K) (row : S) :
    (m.resize T).insert key (Word.resize T row) =
      ((m.insert key row).1.resize T, (m.insert key row).2) := by
  rw [insert, insert, capacity_resize, home_resize, firstFree?_resize]
  cases m.firstFree? m.capacity (m.home key) with
  | none => rfl
  | some i =>
    dsimp only
    split
    · rfl
    · rw [resize, resize, Array.map_setIfInBounds]
      rfl

end Multimap

/-! ## Building -/

namespace BuildState

variable {K S T : Type} [JoinKey K] [Word S] [Word T]

def resize (T : Type) [Word T] (s : BuildState K S) : BuildState K T :=
  ⟨s.table.resize T, s.reserved, s.rejected⟩

theorem resize_buildRow (keys : Array K) {i : Nat} (hi : i < Word.size S) (s : BuildState K S) :
    (Multimap.buildRow keys i s).resize T = Multimap.buildRow keys i (s.resize T) := by
  unfold Multimap.buildRow
  cases keys[i]? with
  | none => rfl
  | some key =>
    dsimp only
    split
    · rfl
    · rw [← Word.resize_ofNat (T := T) hi, resize, resize, Multimap.insert_resize]

theorem resize_foldl_buildRow (keys : Array K) (rows : List Nat)
    (hrows : ∀ i ∈ rows, i < Word.size S) (s : BuildState K S) :
    (rows.foldl (fun s i => Multimap.buildRow keys i s) s).resize T =
      rows.foldl (fun s i => Multimap.buildRow keys i s) (s.resize T) := by
  induction rows generalizing s with
  | nil => rfl
  | cons i rest ih =>
    rw [List.foldl_cons, List.foldl_cons, ih fun k hk => hrows k (List.mem_cons_of_mem _ hk),
      resize_buildRow keys (hrows i List.mem_cons_self)]

end BuildState

/-! ## Probing -/

namespace Prober

variable {K S T : Type} [Word S] [Word T] {p : Prober} {table : Multimap K S}
  {probe build : KeyColumns K}

theorem agreeing_resize {row : Nat} {found : List S}
    (hfound : ∀ j ∈ found, Word.toNat j < Word.size T) :
    agreeing probe build row (found.map (Word.resize T)) =
      (agreeing probe build row found).map (Word.resize T) := by
  rw [agreeing, List.filter_map]
  congr 1
  refine List.filter_congr fun j hj => ?_
  rw [Function.comp_apply, Word.toNat_resize (hfound j hj)]

theorem rowOf_resize {row : Nat} {j : S} (hS : Word.toNat j < Word.toNat (Word.top S))
    (hT : Word.toNat j < Word.toNat (Word.top T)) :
    rowOf (row, Word.resize T j) = rowOf (row, j) := by
  have hread : JoinResult.row? j = some (Word.toNat j) := if_neg (Nat.ne_of_lt hS)
  rw [rowOf, rowOf, hread, Word.resize, row?_ofNat hT]

/-- Tables of both widths emit the same rows. -/
theorem map_rowOf_emitted_resize (hfinds : table.RowsBelow build.len)
    (hS : build.len < Word.toNat (Word.top S)) (hT : build.len < Word.toNat (Word.top T))
    (row : Nat) :
    (p.emitted (table.resize T) probe build row).map rowOf =
      (p.emitted table probe build row).map rowOf := by
  unfold emitted
  cases probe.keys[row]? with
  | none => rfl
  | some key =>
    have hlt := hfinds key
    have hsize : ∀ j ∈ table.find key, Word.toNat j < Word.size T := fun j hj =>
      Nat.lt_trans (Nat.lt_trans (hlt j hj) hT) (Word.toNat_lt _)
    dsimp only
    rw [Multimap.find_resize, agreeing_resize hsize]
    have hread : (((agreeing probe build row (table.find key)).map (Word.resize T)).map
        fun j => (row, j)).map rowOf =
        ((agreeing probe build row (table.find key)).map fun j => (row, j)).map rowOf := by
      rw [List.map_map, List.map_map, List.map_map]
      refine List.map_congr_left fun j hj => ?_
      have hj := hlt j (List.mem_filter.mp hj).1
      exact rowOf_resize (Nat.lt_trans hj hS) (Nat.lt_trans hj hT)
    cases hfound : agreeing probe build row (table.find key) with
    | nil =>
      cases p.joinType with
      | inner => rfl
      | left => exact congrArg (fun row? => [(row, row?)]) (row?_top.trans row?_top.symm)
    | cons j rest =>
      rw [hfound] at hread
      cases p.joinType <;> exact hread

theorem map_rowOf_emissions_resize (hfinds : table.RowsBelow build.len)
    (hS : build.len < Word.toNat (Word.top S)) (hT : build.len < Word.toNat (Word.top T))
    (rows : List Nat) :
    (p.emissions (table.resize T) probe build rows).map rowOf =
      (p.emissions table probe build rows).map rowOf := by
  rw [emissions, emissions, List.map_flatMap, List.map_flatMap]
  congr 1
  funext row
  exact map_rowOf_emitted_resize hfinds hS hT row

end Prober

/-! ## A whole join -/

namespace HashJoin

variable {K S T : Type} [JoinKey K] [Word S] [Word T] {j : HashJoin} {left right : KeyColumns K}
  {d : Device} (keying : Keying K)

/-- The table over the same rows, taken up in the same order. -/
theorem tableOn_resize {keys : Array K} (hword : keys.size ≤ Word.size S) :
    (j.tableOn S keying keys d).resize T = j.tableOn T keying keys d := by
  unfold tableOn
  cases Launch.forLen (UInt64.ofNat keys.size) j.block with
  | error e => exact Multimap.resize_free _ _
  | ok l =>
    have hrows : ∀ i ∈ d.rowOrder l keys.size, i < Word.size S := fun i hi =>
      Nat.lt_of_lt_of_le (by simpa using (List.mem_filter.mp hi).2) hword
    have hbuilt := BuildState.resize_foldl_buildRow (T := T) keys (d.rowOrder l keys.size) hrows
      ⟨.free (j.tableSlots keys.size) keying, 0, 0⟩
    rw [BuildState.resize, BuildState.resize, Multimap.resize_free] at hbuilt
    exact congrArg BuildState.table hbuilt

/-- Joins of both widths emit the same rows. -/
theorem map_rowOf_emissions_tableOn (hS : (j.built left right).len < Word.toNat (Word.top S))
    (hT : (j.built left right).len < Word.toNat (Word.top T))
    (hsize : (j.built left right).len + UInt32.size ≤ UInt64.size) (hd : d.RunsAll)
    (rows : List Nat) :
    (j.prober.emissions (j.tableOn T keying (j.built left right).keys d) (j.probed left right)
      (j.built left right) rows).map Prober.rowOf =
    (j.prober.emissions (j.tableOn S keying (j.built left right).keys d) (j.probed left right)
      (j.built left right) rows).map Prober.rowOf := by
  have hword : (j.built left right).keys.size ≤ Word.size S :=
    Nat.le_of_lt (Nat.lt_trans hS (Word.toNat_lt _))
  rw [← tableOn_resize (T := T) keying hword]
  exact Prober.map_rowOf_emissions_resize (tableOn_rowsBelow keying hsize hd) hS hT rows

/-- The load of a join but for the bytes of a row number. -/
theorem found_loadOn_eq (hS : (j.built left right).len < Word.toNat (Word.top S))
    (hT : (j.built left right).len < Word.toNat (Word.top T))
    (hsize : (j.built left right).len + UInt32.size ≤ UInt64.size) (hd : d.RunsAll) :
    (j.loadOn T keying left right d).found = (j.loadOn S keying left right d).found := by
  funext len
  have hrows := congrArg List.length (map_rowOf_emissions_tableOn keying hS hT hsize hd
    (List.range (min len (j.probed left right).len)))
  rwa [List.length_map, List.length_map] at hrows

end HashJoin
end GridOps
