import GridOps.Proofs.Device.PrefixSum
import Mathlib.Algebra.BigOperators.Group.List.Lemmas

/-!
Lists laid end to end in one buffer.

`startOf lists i` is the place where list `i` starts.  When the thread of each list writes it there,
the buffer holds all of them (`DeviceM.launch_tiles`).  The starts are what the offsets of the
lengths are (`PrefixSum.offsets_lengths_follows`).
-/

namespace GridOps

variable {α : Type} {lists : List (List α)} {xs : List α} {i : Nat}

/-- Where list `i` starts if the lists are laid end to end. -/
def startOf (lists : List (List α)) (i : Nat) : Nat := ((lists.map List.length).take i).sum

@[simp] theorem startOf_zero (lists : List (List α)) : startOf lists 0 = 0 := by simp [startOf]

theorem startOf_succ (h : lists[i]? = some xs) :
    startOf lists (i + 1) = startOf lists i + xs.length := by
  rw [startOf, startOf, List.take_add_one, List.sum_append, List.getElem?_map, h]
  simp

theorem startOf_length (lists : List (List α)) :
    startOf lists lists.length = lists.flatten.length := by
  rw [startOf, ← List.length_map (f := List.length), List.take_length, List.length_flatten]

theorem startOf_mono (lists : List (List α)) {i j : Nat} (h : i ≤ j) :
    startOf lists i ≤ startOf lists j := by
  obtain ⟨k, rfl⟩ := Nat.exists_eq_add_of_le h
  rw [startOf, startOf, List.take_add, List.sum_append]
  exact Nat.le_add_right _ _

theorem startOf_le (lists : List (List α)) (h : i ≤ lists.length) :
    startOf lists i ≤ lists.flatten.length := by
  rw [← startOf_length]
  exact startOf_mono lists h

/-- What stands between two starts. -/
theorem extract_flatten (h : lists[i]? = some xs) :
    (lists.flatten.take (startOf lists (i + 1))).drop (startOf lists i) = xs := by
  obtain ⟨hi, rfl⟩ := List.getElem?_eq_some_iff.mp h
  exact List.drop_take_succ_flatten_eq_getElem lists i hi

theorem getElem?_flatten_startOf (h : lists[i]? = some xs) {j : Nat} (hj : j < xs.length) :
    lists.flatten[startOf lists i + j]? = xs[j]? := by
  have hextract := congrArg (·[j]?) (extract_flatten h)
  rwa [List.getElem?_drop, List.getElem?_take_of_lt (by rw [startOf_succ h]; omega)] at hextract

/-- Every place belongs to a list. -/
theorem exists_startOf_le {k : Nat} (hk : k < lists.flatten.length) :
    ∃ i xs, lists[i]? = some xs ∧ startOf lists i ≤ k ∧ k < startOf lists i + xs.length := by
  have hfind : ∀ n ≤ lists.length, k < startOf lists n →
      ∃ i xs, lists[i]? = some xs ∧ startOf lists i ≤ k ∧ k < startOf lists i + xs.length := by
    intro n hn hkn
    induction n with
    | zero =>
      rw [startOf_zero] at hkn
      exact absurd hkn (Nat.not_lt_zero k)
    | succ n ih =>
      have hxs : lists[n]? = some lists[n] := List.getElem?_eq_getElem hn
      rw [startOf_succ hxs] at hkn
      rcases Nat.lt_or_ge k (startOf lists n) with hlt | hge
      · exact ih (Nat.le_of_succ_le hn) hlt
      · exact ⟨n, lists[n], hxs, hge, hkn⟩
  rw [← startOf_length] at hk
  exact hfind lists.length (Nat.le_refl _) hk

/-- The starts follow the order of the lists. -/
theorem lt_of_startOf_lt {i j : Nat} (h : startOf lists i < startOf lists j) : i < j :=
  Nat.lt_of_not_le fun hle => Nat.not_lt_of_le (startOf_mono lists hle) h

theorem startOf_uniform {width : Nat} (h : ∀ xs ∈ lists, xs.length = width)
    (hi : i ≤ lists.length) : startOf lists i = i * width := by
  induction i with
  | zero => simp
  | succ i ih =>
    have hxs : lists[i]? = some lists[i] := List.getElem?_eq_getElem hi
    rw [startOf_succ hxs, ih (Nat.le_of_succ_le hi), h _ (List.getElem_mem hi), Nat.succ_mul]

theorem filter_range_interval {first count n : Nat} (h : first + count ≤ n) :
    (List.range n).filter (fun k => first ≤ k ∧ k < first + count) = List.range' first count := by
  obtain ⟨rest, rfl⟩ := Nat.exists_eq_add_of_le h
  have hsplit : List.range (first + count + rest) =
      List.range' 0 first ++ List.range' first count ++ List.range' (first + count) rest := by
    have hfirst := List.range'_append_1 (s := 0) (m := first) (n := count)
    have hall := List.range'_append_1 (s := 0) (m := first + count) (n := rest)
    rw [Nat.zero_add] at hfirst hall
    rw [hfirst, hall, List.range_eq_range']
  have hbefore : (List.range' 0 first).filter (fun k => first ≤ k ∧ k < first + count) = [] := by
    simp only [List.filter_eq_nil_iff, List.mem_range'_1, decide_eq_true_eq]
    omega
  have hbetween : (List.range' first count).filter (fun k => first ≤ k ∧ k < first + count) =
      List.range' first count := by
    simp only [List.filter_eq_self, List.mem_range'_1, decide_eq_true_eq]
    omega
  have hbehind : (List.range' (first + count) rest).filter
      (fun k => first ≤ k ∧ k < first + count) = [] := by
    simp only [List.filter_eq_nil_iff, List.mem_range'_1, decide_eq_true_eq]
    omega
  rw [hsplit, List.filter_append, List.filter_append, hbefore, hbetween, hbehind, List.append_nil,
    List.nil_append]

/-- If the members of each list tell its number, those that tell `i` stand where list `i` is. -/
theorem filter_range_label {label : α → Nat}
    (hlabel : ∀ i xs, lists[i]? = some xs → ∀ a ∈ xs, label a = i) (h : lists[i]? = some xs) :
    (List.range lists.flatten.length).filter (fun k => lists.flatten[k]?.map label = some i) =
      List.range' (startOf lists i) xs.length := by
  obtain ⟨hi, -⟩ := List.getElem?_eq_some_iff.mp h
  rw [← filter_range_interval (startOf_succ h ▸ startOf_le lists hi)]
  refine List.filter_congr fun k hk => ?_
  obtain ⟨j, ys, hys, hstart, hend⟩ := exists_startOf_le (List.mem_range.mp hk)
  have hlt : k - startOf lists j < ys.length := by omega
  have hplace := getElem?_flatten_startOf hys hlt
  rw [Nat.add_sub_of_le hstart, List.getElem?_eq_getElem hlt] at hplace
  rw [hplace, Option.map_some, hlabel j ys hys _ (List.getElem_mem hlt)]
  have hiff : j = i ↔ startOf lists i ≤ k ∧ k < startOf lists i + xs.length := by
    constructor
    · rintro rfl
      rw [hys] at h
      cases h
      exact ⟨hstart, hend⟩
    · rintro ⟨hstart', hend'⟩
      rw [← startOf_succ hys] at hend
      rw [← startOf_succ h] at hend'
      have hle := lt_of_startOf_lt (Nat.lt_of_le_of_lt hstart' hend)
      have hge := lt_of_startOf_lt (Nat.lt_of_le_of_lt hstart hend')
      omega
  simp only [Option.some.injEq]
  exact decide_eq_decide.mpr hiff

/-- A list is written at its start. -/
theorem scatterFrom_startOf_writes (h : lists[i]? = some xs) :
    Writes lists.flatten (fun k => startOf lists i ≤ k ∧ k < startOf lists i + xs.length)
      (scatterFrom xs (startOf lists i)) :=
  scatterFrom_writes fun _ hj => getElem?_flatten_startOf h hj

/-- A launch whose threads write one list each leaves all of them, end to end. -/
theorem DeviceM.launch_tiles {kernel : Kernel (Array α)} {l : Launch} {d : Device} (name : String)
    (lists : List (List α)) (hl : l.Covers lists.length) (hd : d.RunsGrid)
    (hitem : ∀ t xs, lists[t.global]? = some xs →
      kernel t = scatterFrom xs (startOf lists t.global))
    (hrest : ∀ t, lists.length ≤ t.global → kernel t = pure ()) {a : Array α}
    (ha : a.size = lists.flatten.length) :
    launch name l kernel a d = .ok lists.flatten.toArray { d with launches := d.launches + 1 } := by
  refine launch_writes name lists.flatten
    (fun i k => startOf lists i ≤ k ∧ k < startOf lists i + (lists[i]?.getD []).length)
    hl hd (fun t ht => ?_) hrest (fun k hk => ?_) ha
  · have hxs : lists[t.global]? = some lists[t.global] := List.getElem?_eq_getElem ht
    rw [hitem t _ hxs, hxs]
    exact scatterFrom_startOf_writes hxs
  · obtain ⟨i, xs, hxs, hbounds⟩ := exists_startOf_le hk
    obtain ⟨hi, -⟩ := List.getElem?_eq_some_iff.mp hxs
    refine ⟨i, hi, ?_⟩
    rw [hxs]
    exact hbounds

/-! ## Starts as offsets -/

section Offsets

variable {β : Type} [Word β] {d : Device}

/-- The lengths of the lists, in words. -/
def lengths (β : Type) [Word β] (lists : List (List α)) : List β :=
  (lists.map List.length).map Word.ofNat

/-- The starts of the lists, in words, with the end of the last. -/
def starts (β : Type) [Word β] (lists : List (List α)) : List β :=
  (List.range (lists.length + 1)).map fun i => Word.ofNat (startOf lists i)

@[simp] theorem length_lengths (lists : List (List α)) :
    (lengths β lists).length = lists.length := by
  simp [lengths]

@[simp] theorem length_starts (lists : List (List α)) :
    (starts β lists).length = lists.length + 1 := by
  simp [starts]

theorem getElem?_starts (h : i ≤ lists.length) :
    (starts β lists)[i]? = some (Word.ofNat (startOf lists i)) := by
  simp [starts, Nat.lt_succ_of_le h]

/-- The starts can be read back if 32 bits have the length of all. -/
theorem toNat_getElem?_starts (h : lists.flatten.length < UInt32.size) (hi : i ≤ lists.length) :
    ((starts UInt32 lists).toArray[i]?.getD 0).toNat = startOf lists i := by
  rw [List.getElem?_toArray, getElem?_starts hi]
  exact UInt32.toNat_ofNat_of_lt' (Nat.lt_of_le_of_lt (startOf_le lists hi) h)

/-- A launch whose threads write the length of one list each leaves all lengths. -/
theorem DeviceM.launch_lengths {kernel : Kernel (Array β)} {l : Launch} (name : String)
    (lists : List (List α)) (hl : l.Covers lists.length) (hd : d.RunsGrid)
    (hitem : ∀ t xs, lists[t.global]? = some xs →
      kernel t = scatter t.global (Word.ofNat xs.length))
    (hrest : ∀ t, lists.length ≤ t.global → kernel t = pure ()) {a : Array β}
    (ha : a.size = lists.length) :
    launch name l kernel a d =
      .ok (lengths β lists).toArray { d with launches := d.launches + 1 } := by
  have hsize := length_lengths (β := β) lists
  refine launch_cells name (lengths β lists) (hsize ▸ hl) hd (fun t x hx => ?_)
    (fun t hi => hrest t (hsize ▸ hi)) (ha.trans hsize.symm)
  rw [lengths, List.map_map, List.getElem?_map, Option.map_eq_some_iff] at hx
  obtain ⟨xs, hxs, rfl⟩ := hx
  exact hitem t xs hxs

theorem length_le_of_mem (h : xs ∈ lists) : xs.length ≤ lists.flatten.length :=
  (List.sublist_flatten_of_mem h).length_le

theorem total_take_lengths (h : ∀ xs ∈ lists, xs.length < Word.size β) (i : Nat) :
    PrefixSum.total ((lengths β lists).take i) = startOf lists i := by
  rw [lengths, ← List.map_take, PrefixSum.total_map_ofNat, startOf]
  intro n hn
  obtain ⟨xs, hxs, rfl⟩ := List.mem_map.mp (List.mem_of_mem_take hn)
  exact h xs hxs

theorem total_lengths (h : ∀ xs ∈ lists, xs.length < Word.size β) :
    PrefixSum.total (lengths β lists) = lists.flatten.length := by
  have htake := total_take_lengths (β := β) h lists.length
  rwa [← length_lengths (β := β), List.take_length, length_lengths, startOf_length] at htake

/-- If the type has the length of all, the offsets of the lengths are the starts. -/
theorem PrefixSum.offsets_lengths_ok {p : PrefixSum} {a : Array β} {d' : Device}
    (hp : p.Suits lists.length) (hd : d.RunsGrid) (h : lists.flatten.length < Word.size β)
    (ha : p.offsets (lengths β lists).toArray d = .ok a d') : a = (starts β lists).toArray := by
  have hlt : ∀ xs ∈ lists, xs.length < Word.size β := fun xs hxs =>
    Nat.lt_of_le_of_lt (length_le_of_mem hxs) h
  have hsize : (lengths β lists).toArray.size = lists.length := by simp
  have htotal : total (lengths β lists).toArray.toList < Word.size β := by
    rw [total_lengths hlt]
    exact h
  refine Array.toList_inj.mp ((offsets_ok (hsize ▸ hp) hd htotal ha).trans ?_)
  rw [hsize]
  exact List.map_congr_left fun i _ => congrArg Word.ofNat (total_take_lengths hlt i)

/-- On a device that runs each thread once, the lengths have offsets only if the type has the length
of all. -/
theorem PrefixSum.length_lt_of_offsets_lengths {p : PrefixSum} {a : Array β} {d' : Device}
    (hp : p.Suits lists.length) (hd : d.RunsAll) (h : ∀ xs ∈ lists, xs.length < Word.size β)
    (ha : p.offsets (lengths β lists).toArray d = .ok a d') :
    lists.flatten.length < Word.size β := by
  have hsize : (lengths β lists).toArray.size = lists.length := by simp
  have htotal := total_lt_of_offsets (hsize ▸ hp) hd ha
  rwa [total_lengths h] at htotal

/-- If the type has the length of all, computing the offsets of the lengths fails only for want of
memory or of a grid. -/
theorem PrefixSum.offsets_lengths_follows {p : PrefixSum} (lists : List (List α))
    (hp : p.Suits lists.length) (hb : p.block ≠ 0) (hd : d.RunsGrid)
    (h : lists.flatten.length < Word.size β) :
    DeviceM.Follows DeviceError.kind id (p.offsets (lengths β lists).toArray)
      (p.offsetsPlan (Word.bytes β) lists.length >>= fun _ => pure (starts β lists).toArray) d := by
  have hsize : (lengths β lists).toArray.size = lists.length := by simp
  have htotal : total (lengths β lists).toArray.toList < Word.size β := by
    rw [total_lengths fun xs hxs => Nat.lt_of_le_of_lt (length_le_of_mem hxs) h]
    exact h
  have hfollows := offsets_follows (hsize ▸ hp) hb hd htotal
  rw [hsize] at hfollows
  exact hfollows.answers fun a d' ha => offsets_lengths_ok hp hd h ha

end Offsets

end GridOps
