import GridOps.Join.HashJoin
import GridOps.Proofs.Device.Schedule

/-!
Splitting pairs into left and right rows.

Every thread writes the two cells of its pair and no other thread writes them, so whatever the
order of the threads, the buffer ends with all left rows and then all right rows (`split_ok`).
-/

namespace GridOps
namespace Pair

variable {S : Type}

/-- What the thread of pair `i` does. -/
def splitPair (pairs : Array (Pair S)) (flip : Bool) (i : Nat) (a : Array S) : Array S :=
  match pairs[i]? with
  | some p =>
    (a.setIfInBounds i (p.oriented flip).first).setIfInBounds (i + pairs.size)
      (p.oriented flip).second
  | none => a

/-- The left rows of the pairs, then their right rows. -/
def halves (pairs : Array (Pair S)) (flip : Bool) : List S :=
  (pairs.toList.map fun p => (p.oriented flip).first) ++
    pairs.toList.map fun p => (p.oriented flip).second

theorem size_splitPair (pairs : Array (Pair S)) (flip : Bool) (i : Nat) (a : Array S) :
    (splitPair pairs flip i a).size = a.size := by
  unfold splitPair
  split
  · rw [Array.size_setIfInBounds, Array.size_setIfInBounds]
  · rfl

variable {pairs : Array (Pair S)} {flip : Bool}

theorem splitKernel_eq (t : Thread) {a : Array S} (ha : a.size = 2 * pairs.size) :
    splitKernel pairs flip t a =
      .ok () (if t.global < pairs.size then splitPair pairs flip t.global a else a) := by
  unfold splitKernel splitPair
  by_cases ht : t.global < pairs.size
  · rw [if_pos ht, Array.getElem?_eq_getElem ht]
    change EStateM.bind (scatter _ _) (fun _ => scatter _ _) a = _
    have hleft : t.global < a.size := by omega
    have hright : t.global + pairs.size < (a.set t.global
        (pairs[t.global].oriented flip).first hleft).size := by
      rw [Array.size_set]
      omega
    rw [EStateM.bind, scatter, dif_pos hleft]
    dsimp only
    rw [scatter, dif_pos hright, Array.setIfInBounds_def, Array.setIfInBounds_def, dif_pos hleft,
      dif_pos hright]
  · rw [if_neg ht, Array.getElem?_eq_none (Nat.le_of_not_lt ht)]
    rfl

theorem getElem?_halves_left {i : Nat} {p : Pair S} (hp : pairs[i]? = some p) :
    (halves pairs flip)[i]? = some (p.oriented flip).first := by
  have hi : i < pairs.size := (Array.getElem?_eq_some_iff.mp hp).1
  rw [halves, List.getElem?_append_left (by rwa [List.length_map, Array.length_toList]),
    List.getElem?_map, Array.getElem?_toList, hp]
  rfl

theorem getElem?_halves_right {i : Nat} {p : Pair S} (hp : pairs[i]? = some p) :
    (halves pairs flip)[i + pairs.size]? = some (p.oriented flip).second := by
  rw [halves, List.getElem?_append_right
    (by rw [List.length_map, Array.length_toList]; exact Nat.le_add_left ..),
    List.length_map, Array.length_toList, Nat.add_sub_cancel, List.getElem?_map,
    Array.getElem?_toList, hp]
  rfl

/-- A thread puts the right values into its two cells and leaves the others. -/
theorem getElem?_splitPair {i : Nat} (hi : i < pairs.size) {a : Array S}
    (ha : a.size = 2 * pairs.size) (k : Nat) :
    (splitPair pairs flip i a)[k]? =
      if k = i ∨ k = i + pairs.size then (halves pairs flip)[k]? else a[k]? := by
  have hp : pairs[i]? = some pairs[i] := Array.getElem?_eq_getElem hi
  unfold splitPair
  rw [hp]
  dsimp only
  rw [Array.getElem?_setIfInBounds, Array.getElem?_setIfInBounds, Array.size_setIfInBounds]
  by_cases hright : k = i + pairs.size
  · subst hright
    rw [if_pos rfl, if_pos (by omega), if_pos (Or.inr rfl), getElem?_halves_right hp]
  · rw [if_neg (Ne.symm hright)]
    by_cases hleft : k = i
    · subst hleft
      rw [if_pos rfl, if_pos (by omega), if_pos (Or.inl rfl), getElem?_halves_left hp]
    · rw [if_neg (Ne.symm hleft), if_neg (not_or.mpr ⟨hleft, hright⟩)]

theorem getElem?_foldl_splitPair {rows : List Nat} (hrows : ∀ i ∈ rows, i < pairs.size)
    {a : Array S} (ha : a.size = 2 * pairs.size) (k : Nat) :
    (rows.foldl (fun a i => splitPair pairs flip i a) a)[k]? =
      if ∃ i ∈ rows, k = i ∨ k = i + pairs.size then (halves pairs flip)[k]? else a[k]? := by
  induction rows generalizing a with
  | nil =>
    rw [if_neg (by simp)]
    rfl
  | cons i rest ih =>
    have hi := hrows i List.mem_cons_self
    rw [List.foldl_cons, ih (fun j hj => hrows j (List.mem_cons_of_mem _ hj))
      ((size_splitPair pairs flip i a).trans ha), getElem?_splitPair hi ha]
    by_cases hrest : ∃ j ∈ rest, k = j ∨ k = j + pairs.size
    · obtain ⟨j, hj, hk⟩ := hrest
      rw [if_pos ⟨j, hj, hk⟩, if_pos ⟨j, List.mem_cons_of_mem _ hj, hk⟩]
    · rw [if_neg hrest]
      by_cases hthis : k = i ∨ k = i + pairs.size
      · rw [if_pos hthis, if_pos ⟨i, List.mem_cons_self, hthis⟩]
      · rw [if_neg hthis, if_neg]
        rintro ⟨j, hj, hk⟩
        rcases List.mem_cons.mp hj with rfl | hj
        · exact hthis hk
        · exact hrest ⟨j, hj, hk⟩

theorem size_foldl_splitPair (pairs : Array (Pair S)) (flip : Bool) (rows : List Nat)
    (a : Array S) :
    (rows.foldl (fun a i => splitPair pairs flip i a) a).size = a.size := by
  induction rows generalizing a with
  | nil => rfl
  | cons i rest ih => rw [List.foldl_cons, ih, size_splitPair]

/-- In whatever order the threads of all pairs run, they leave the two halves. -/
theorem foldl_splitPair {rows : List Nat} (hrows : rows.Perm (List.range pairs.size))
    {a : Array S} (ha : a.size = 2 * pairs.size) :
    (rows.foldl (fun a i => splitPair pairs flip i a) a).toList = halves pairs flip := by
  -- Every cell belongs to a thread, and what the thread writes there does not depend on the others.
  have hcells : ∀ k < 2 * pairs.size, ∃ i ∈ rows, k = i ∨ k = i + pairs.size := by
    intro k hk
    rcases Nat.lt_or_ge k pairs.size with hleft | hright
    · exact ⟨k, hrows.mem_iff.mpr (List.mem_range.mpr hleft), Or.inl rfl⟩
    · exact ⟨k - pairs.size, hrows.mem_iff.mpr (List.mem_range.mpr (by omega)), Or.inr (by omega)⟩
  have hlength : (halves pairs flip).length = 2 * pairs.size := by
    rw [halves, List.length_append, List.length_map, List.length_map, Array.length_toList]
    omega
  have hsize := (size_foldl_splitPair pairs flip rows a).trans ha
  refine List.ext_getElem? fun k => ?_
  rw [Array.getElem?_toList]
  rcases Nat.lt_or_ge k (2 * pairs.size) with hk | hk
  · rw [getElem?_foldl_splitPair (fun i hi => List.mem_range.mp (hrows.mem_iff.mp hi)) ha,
      if_pos (hcells k hk)]
  · rw [Array.getElem?_eq_none (by omega), List.getElem?_eq_none (by omega)]

theorem launch_splitKernel (flip : Bool) {l : Launch} (hl : l.Covers pairs.size) {d : Device}
    (hd : d.RunsAll) {a : Array S} (ha : a.size = 2 * pairs.size) :
    DeviceM.launch "pairs_to_decoupled" l (splitKernel pairs flip) a d =
      .ok (halves pairs flip).toArray { d with launches := d.launches + 1 } := by
  have hrun : d.run "pairs_to_decoupled" l (splitKernel pairs flip) a =
      (⟨(d.rowOrder l pairs.size).foldl (fun a i => splitPair pairs flip i a) a, none⟩,
        { d with launches := d.launches + 1 }) :=
    Device.run_rows "pairs_to_decoupled" (P := fun a => a.size = 2 * pairs.size) hl
      (fun t _ ha => splitKernel_eq t ha)
      (fun i a _ ha => (size_splitPair pairs flip i a).trans ha) ha
  unfold DeviceM.launch
  rw [hrun, ← foldl_splitPair (Device.rowOrder_orders hd hl).perm ha]

theorem halves_of_isEmpty (h : pairs.isEmpty = true) : halves pairs flip = [] := by
  rw [halves, Array.toList_eq_nil_iff.mpr (Array.isEmpty_iff.mp h)]
  rfl

variable [Word S]

theorem split_balanced (pairs : Array (Pair S)) (flip : Bool) (block : UInt32) :
    DeviceM.Balanced (split pairs flip block) fun _ => 2 * pairs.size * Word.bytes S := by
  refine DeviceM.Balanced.keep (DeviceM.allocate_balanced _ _) fun _ => ?_
  split
  · exact .pure rfl
  · exact DeviceM.Balanced.bind (.ofExcept _) fun l => DeviceM.launch_balanced _ l _ _

/-- Splitting gives the two halves. -/
theorem split_ok {block : UInt32} {d d' : Device} {rows : Array S} (hd : d.RunsAll)
    (hsize : pairs.size + UInt32.size ≤ UInt64.size) (h : split pairs flip block d = .ok rows d') :
    rows = (halves pairs flip).toArray := by
  obtain ⟨_, d₁, htake, h⟩ := DeviceM.bind_ok h
  have hb₁ := (DeviceM.allocate_balanced _ _).ok htake
  have h := DeviceM.keepingBytes_ok h
  split at h
  · rename_i hempty
    cases h
    rw [halves_of_isEmpty hempty]
  · obtain ⟨l, d₂, hl, h⟩ := DeviceM.bind_ok h
    have hb₂ := (DeviceM.Balanced.ofExcept _).ok hl
    have hcovers : l.Covers pairs.size := Launch.forLen_ofNat_covers hsize (DeviceM.ofExcept_ok hl)
    rw [launch_splitKernel flip hcovers (hd.became (hb₁.trans hb₂)) Array.size_replicate] at h
    cases h
    rfl

/-- Splitting succeeds if the device and the host have the memory and the grid is not too large. -/
theorem split_isOk (flip : Bool) {block : UInt32} {d : Device} (hd : d.RunsAll) (hb : block ≠ 0)
    (hgrid : pairs.size ≤ (UInt32.size - 1) * block.toNat)
    (hhost : 2 * pairs.size * Word.bytes S ≤ maxHostBytes)
    (hroom : d.used + 2 * pairs.size * Word.bytes S ≤ d.capacity) :
    ∃ d', split pairs flip block d = .ok (halves pairs flip).toArray d' := by
  have hbytes := DeviceM.allocate_isOk hhost hroom
  have htaken := (DeviceM.allocate_balanced _ _).ok hbytes
  obtain ⟨l, hl, hcovers⟩ := Launch.exists_forLen_covers hb hgrid
  unfold split
  rw [DeviceM.bind_of_ok hbytes]
  by_cases hempty : pairs.isEmpty
  · rw [if_pos hempty, halves_of_isEmpty hempty]
    exact ⟨_, DeviceM.keepingBytes_of_ok rfl⟩
  · have hlaunch := launch_splitKernel flip hcovers (hd.became htaken)
      (Array.size_replicate (v := (Word.ofNat 0 : S)))
    rw [if_neg hempty, hl]
    exact ⟨_, DeviceM.keepingBytes_of_ok hlaunch⟩

end Pair
end GridOps
