import GridOps.Join.Multimap
import Mathlib.Data.List.ReduceOption
import Mathlib.Data.List.Rotate
import Mathlib.Data.Nat.ModEq

/-!
The multimap as the list of its accepted entries.

A walk over the slots is the list of slots rotated to the walk's start.  `Holds m es` says that
the table holds the entries `es`, that no entry lies beyond the first free slot of its own walk,
and that the entries of one home slot stand in their walk as they stand in `es`.  An insert keeps
this and appends its entry (`Holds.insert`), whatever entries of other homes lie in between, so a
look-up finds the rows of equal keys in the order of their inserts (`Holds.find`).
-/

namespace GridOps
namespace Multimap

/-! ## Slots seen from a start -/

/-- The slots in the order of a walk from slot `i`. -/
def walk {K S : Type} (m : Multimap K S) (i : Nat) : List (Option (K × S)) :=
  m.slots.toList.rotate i

section Walk

variable {K S : Type} {m : Multimap K S}

theorem length_walk (m : Multimap K S) (i : Nat) : (m.walk i).length = m.capacity := by
  rw [walk, List.length_rotate]
  rfl

theorem after_eq {i : Nat} (hi : i < m.capacity) : m.after i = (i + 1) % m.capacity := by
  unfold after
  split
  · rename_i h
    rw [h, Nat.mod_self]
  · rw [Nat.mod_eq_of_lt (by omega)]

theorem after_lt {i : Nat} (hi : i < m.capacity) : m.after i < m.capacity := by
  rw [after_eq hi]
  exact Nat.mod_lt _ (by omega)

theorem lt_capacity {i : Nat} {slot : Option (K × S)} (h : m.slots[i]? = some slot) :
    i < m.capacity := (Array.getElem?_eq_some_iff.mp h).1

theorem exists_slot {i : Nat} (hi : i < m.capacity) : ∃ slot, m.slots[i]? = some slot := by
  have hsize : i < m.slots.size := hi
  exact ⟨m.slots[i], Array.getElem?_eq_getElem hsize⟩

/-- The first `n + 1` slots of a walk are its start and the first `n` slots of the walk after it. -/
theorem take_walk_succ {n i : Nat} {slot : Option (K × S)} (h : m.slots[i]? = some slot)
    (hn : n < m.capacity) :
    (m.walk i).take (n + 1) = slot :: (m.walk (m.after i)).take n := by
  have hi := lt_capacity h
  have hhead : (m.walk i).head? = some slot := by
    rw [walk, List.head?_rotate (by rwa [Array.length_toList]), Array.getElem?_toList, h]
  cases hw : m.walk i with
  | nil =>
    rw [hw] at hhead
    cases hhead
  | cons a rest =>
    rw [hw] at hhead
    have hlen : rest.length + 1 = m.capacity := by
      rw [← length_walk m i, hw]
      rfl
    have hnext : m.walk (m.after i) = rest ++ [a] := by
      have hrot := List.rotate_rotate m.slots.toList i 1
      change (m.walk i).rotate 1 = _ at hrot
      rw [hw, List.rotate_cons_succ, List.rotate_zero] at hrot
      rw [hrot, walk, after_eq hi]
      exact List.rotate_mod m.slots.toList (i + 1)
    rw [hnext, List.take_succ_cons, List.take_append_of_le_length (by omega),
      Option.some.inj hhead]

/-- Changing one slot changes every walk at one place. -/
theorem rotate_set {α : Type} (l : List α) {t : Nat} (i : Nat) (a : α) (ht : t < l.length) :
    (l.set ((t + i) % l.length) a).rotate i = (l.rotate i).set t a := by
  refine List.ext_getElem (by simp) (fun k hk _ => ?_)
  rw [List.length_rotate, List.length_set] at hk
  rw [List.getElem_rotate, List.getElem_set, List.getElem_set, List.getElem_rotate]
  simp only [List.length_set]
  by_cases h : t = k
  · rw [if_pos (by rw [h]), if_pos h]
  · rw [if_neg (fun heq => h ?_), if_neg h]
    have hcancel := Nat.ModEq.add_right_cancel' i heq
    rwa [Nat.ModEq, Nat.mod_eq_of_lt ht, Nat.mod_eq_of_lt hk] at hcancel

/-- A slot's place in a walk. -/
theorem exists_place {n p i : Nat} (hi : i < n) (hp : p < n) : ∃ t < n, (t + i) % n = p := by
  rcases Nat.lt_or_ge p i with h | h
  · refine ⟨p + n - i, by omega, ?_⟩
    rw [Nat.sub_add_cancel (by omega), Nat.add_mod_right, Nat.mod_eq_of_lt hp]
  · refine ⟨p - i, by omega, ?_⟩
    rw [Nat.sub_add_cancel h, Nat.mod_eq_of_lt hp]

end Walk

/-! ## The first free slot, and the rows up to it -/

section FirstFree

variable {K S : Type} {m : Multimap K S}

/-- A walk finds a free slot `t` steps on, and every slot before it is taken. -/
theorem firstFree?_eq_some {n i p : Nat} (hn : n ≤ m.capacity) (hi : i < m.capacity)
    (h : m.firstFree? n i = some p) :
    ∃ t < n, (t + i) % m.capacity = p ∧ m.slots[p]? = some none ∧
      ∀ slot ∈ (m.walk i).take t, slot.isSome := by
  induction n generalizing i with
  | zero => cases h
  | succ n ih =>
    obtain ⟨slot, hslot⟩ := exists_slot hi
    rw [firstFree?, hslot] at h
    cases slot with
    | none =>
      cases h
      exact ⟨0, by omega, by rw [Nat.zero_add, Nat.mod_eq_of_lt hi], hslot, by simp⟩
    | some e =>
      obtain ⟨t, ht, hp, hfree, htaken⟩ := ih (by omega) (after_lt hi) h
      refine ⟨t + 1, by omega, ?_, hfree, ?_⟩
      · rw [← hp, after_eq hi, Nat.add_mod_mod, Nat.add_assoc, Nat.add_comm 1 i]
      · rw [take_walk_succ hslot (by omega)]
        intro slot hmem
        rcases List.mem_cons.mp hmem with rfl | hmem
        · rfl
        · exact htaken slot hmem

theorem firstFree?_eq_none {n i : Nat} (hn : n ≤ m.capacity) (hi : i < m.capacity)
    (h : m.firstFree? n i = none) : ∀ slot ∈ (m.walk i).take n, slot.isSome := by
  induction n generalizing i with
  | zero => simp
  | succ n ih =>
    obtain ⟨slot, hslot⟩ := exists_slot hi
    rw [firstFree?, hslot] at h
    cases slot with
    | none => cases h
    | some e =>
      rw [take_walk_succ hslot (by omega)]
      intro slot hmem
      rcases List.mem_cons.mp hmem with rfl | hmem
      · rfl
      · exact ih (by omega) (after_lt hi) h slot hmem

/-- A look-up collects the matching rows of the entries before the first free slot. -/
theorem rowsFrom_eq {key : K} {n i : Nat} (hn : n ≤ m.capacity) (hi : i < m.capacity) :
    m.rowsFrom key n i = ((((m.walk i).take n).takeWhile Option.isSome).reduceOption.filter
      fun e => m.keying.equal e.1 key).map Prod.snd := by
  induction n generalizing i with
  | zero => rfl
  | succ n ih =>
    obtain ⟨slot, hslot⟩ := exists_slot hi
    rw [rowsFrom, hslot, take_walk_succ hslot (by omega)]
    cases slot with
    | none => rfl
    | some e =>
      dsimp only
      rw [ih (by omega) (after_lt hi), List.takeWhile_cons_of_pos rfl,
        List.reduceOption_cons_of_some]
      rw [List.filter_cons]
      by_cases he : m.keying.equal e.1 key = true
      · rw [if_pos he, if_pos he, List.map_cons]
      · rw [if_neg he, if_neg he]

end FirstFree

/-! ## The entries of a table -/

/-- The table's entries, in the order in which they were accepted, are `es`. -/
structure Holds {K S : Type} (m : Multimap K S) (es : List (K × S)) : Prop where
  pos : 0 < m.capacity
  perm : m.entries.Perm es
  /-- No entry lies beyond the first free slot of its own walk. -/
  chained : ∀ i < m.capacity, ∀ e,
    some e ∈ (m.walk i).dropWhile Option.isSome → m.home e.1 ≠ i
  /-- The entries of a home slot stand in their walk in the order of their inserts. -/
  inOrder : ∀ i < m.capacity, (m.walk i).reduceOption.filter (fun e => m.home e.1 = i) =
    es.filter fun e => m.home e.1 = i

section Holds

variable {K S : Type} {m : Multimap K S} {es : List (K × S)}

theorem home_lt (h : 0 < m.capacity) (key : K) : m.home key < m.capacity := Nat.mod_lt _ h

theorem holds_free {capacity : Nat} (h : 0 < capacity) (keying : Keying K) :
    (free capacity keying : Multimap K S).Holds [] := by
  have hcap : (free capacity keying : Multimap K S).capacity = capacity := Array.size_replicate
  have hwalk : ∀ i,
      (free capacity keying : Multimap K S).walk i = List.replicate capacity none := by
    intro i
    rw [walk, free, Array.toList_replicate, List.rotate_replicate]
  have hnone : (List.replicate capacity (none : Option (K × S))).reduceOption = [] :=
    List.reduceOption_replicate_none
  refine ⟨by rwa [hcap], ?_, fun i _ e hmem => ?_, fun i _ => ?_⟩
  · show (List.reduceOption (Array.replicate capacity (none : Option (K × S))).toList).Perm []
    rw [Array.toList_replicate, hnone]
  · rw [hwalk] at hmem
    have hrep := (List.dropWhile_sublist _).subset hmem
    cases List.eq_of_mem_replicate hrep
  · rw [hwalk, hnone]

/-- The table with an entry in slot `p`. -/
def put (m : Multimap K S) (p : Nat) (e : K × S) : Multimap K S :=
  { m with slots := m.slots.setIfInBounds p (some e) }

theorem capacity_put (m : Multimap K S) (p : Nat) (e : K × S) : (m.put p e).capacity = m.capacity :=
  Array.size_setIfInBounds

theorem home_put (m : Multimap K S) (p : Nat) (e : K × S) (key : K) :
    (m.put p e).home key = m.home key := by
  rw [home, home, capacity_put]
  rfl

/-- Filling a free slot, seen from the start `i` of a walk. -/
theorem walk_put {i t : Nat} (ht : t < m.capacity)
    (hfree : m.slots[(t + i) % m.capacity]? = some none) (e : K × S) :
    m.walk i = (m.walk i).take t ++ none :: (m.walk i).drop (t + 1) ∧
      (m.put ((t + i) % m.capacity) e).walk i =
        (m.walk i).take t ++ some e :: (m.walk i).drop (t + 1) := by
  have hlen : t < (m.walk i).length := by rwa [length_walk]
  have hat : (m.walk i)[t] = none := by
    have hrot : (m.walk i)[t]? = m.slots.toList[(t + i) % m.capacity]? :=
      List.getElem?_rotate ht
    have hslot : m.slots.toList[(t + i) % m.capacity]? = some none :=
      Array.getElem?_toList.trans hfree
    rw [hslot, List.getElem?_eq_getElem hlen] at hrot
    exact Option.some.inj hrot
  constructor
  · have hsplit := List.take_append_drop t (m.walk i)
    rw [List.drop_eq_getElem_cons hlen, hat] at hsplit
    exact hsplit.symm
  · have hset := rotate_set m.slots.toList i (some e) (t := t) ht
    rw [show (m.put ((t + i) % m.capacity) e).walk i = (m.walk i).set t (some e) by
      rw [walk, put, Array.toList_setIfInBounds]
      exact hset]
    rw [List.set_eq_take_append_cons_drop, if_pos hlen]

theorem mem_dropWhile_fill {α : Type} {before after : List (Option α)} {e : α} {x : Option α}
    (h : x ∈ (before ++ some e :: after).dropWhile Option.isSome) :
    x = some e ∨ x ∈ (before ++ none :: after).dropWhile Option.isSome := by
  induction before with
  | nil =>
    rw [List.nil_append, List.dropWhile_cons_of_pos rfl] at h
    exact Or.inr (List.mem_cons_of_mem _ ((List.dropWhile_sublist _).subset h))
  | cons a before ih =>
    cases a with
    | none =>
      rw [List.cons_append, List.dropWhile_cons_of_neg (by simp)] at h ⊢
      simp only [List.mem_cons, List.mem_append] at h ⊢
      tauto
    | some b =>
      rw [List.cons_append, List.dropWhile_cons_of_pos rfl] at h ⊢
      exact ih h

theorem dropWhile_append_none {α : Type} {before after : List (Option α)}
    (h : ∀ x ∈ before, x.isSome) :
    (before ++ none :: after).dropWhile Option.isSome = none :: after := by
  rw [List.dropWhile_append_of_pos h]
  rfl

theorem reduceOption_walk_perm (m : Multimap K S) (i : Nat) :
    (m.walk i).reduceOption.Perm m.entries :=
  (List.rotate_perm m.slots.toList i).filterMap id

variable {e : K × S} {t : Nat}

theorem entries_put_perm (ht : t < m.capacity)
    (hfree : m.slots[(t + m.home e.1) % m.capacity]? = some none) :
    (m.put ((t + m.home e.1) % m.capacity) e).entries.Perm (m.entries ++ [e]) := by
  obtain ⟨hbefore, hafter⟩ := walk_put ht hfree e
  have hold := reduceOption_walk_perm m (m.home e.1)
  have hnew := reduceOption_walk_perm (m.put ((t + m.home e.1) % m.capacity) e) (m.home e.1)
  rw [hbefore, List.reduceOption_append, List.reduceOption_cons_of_none] at hold
  rw [hafter, List.reduceOption_append, List.reduceOption_cons_of_some] at hnew
  exact hnew.symm.trans (List.perm_middle.trans
    ((hold.cons e).trans (List.perm_append_singleton e _).symm))

/-- Filling the first free slot of the entry's own walk keeps every chain. -/
theorem Holds.chained_put (h : m.Holds es) (ht : t < m.capacity)
    (hfree : m.slots[(t + m.home e.1) % m.capacity]? = some none)
    (htaken : ∀ slot ∈ (m.walk (m.home e.1)).take t, slot.isSome) {i : Nat} (hi : i < m.capacity)
    {x : K × S} (hmem : some x ∈
      ((m.put ((t + m.home e.1) % m.capacity) e).walk i).dropWhile Option.isSome) :
    m.home x.1 ≠ i := by
  by_cases he : m.home e.1 = i
  · subst he
    obtain ⟨hbefore, hafter⟩ := walk_put ht hfree e
    rw [hafter, List.dropWhile_append_of_pos htaken, List.dropWhile_cons_of_pos rfl] at hmem
    refine h.chained _ hi x ?_
    rw [hbefore, dropWhile_append_none htaken]
    exact List.mem_cons_of_mem _ ((List.dropWhile_sublist _).subset hmem)
  · -- The walk of another home meets the slot anywhere; a filled slot only lengthens its chain.
    obtain ⟨u, hu, hplace⟩ := exists_place hi (Nat.mod_lt (t + m.home e.1) h.pos)
    rw [← hplace] at hfree hmem
    obtain ⟨hbefore, hafter⟩ := walk_put hu hfree e
    rw [hafter] at hmem
    rcases mem_dropWhile_fill hmem with hx | hold
    · rw [Option.some.inj hx]
      exact he
    · rw [← hbefore] at hold
      exact h.chained i hi x hold

/-- Filling the first free slot of the entry's own walk puts it after the entries of its home. -/
theorem Holds.inOrder_put (h : m.Holds es) (ht : t < m.capacity)
    (hfree : m.slots[(t + m.home e.1) % m.capacity]? = some none)
    (htaken : ∀ slot ∈ (m.walk (m.home e.1)).take t, slot.isSome) {i : Nat} (hi : i < m.capacity) :
    ((m.put ((t + m.home e.1) % m.capacity) e).walk i).reduceOption.filter
      (fun x => m.home x.1 = i) = (es ++ [e]).filter fun x => m.home x.1 = i := by
  have hold := h.inOrder i hi
  by_cases he : m.home e.1 = i
  · subst he
    obtain ⟨hbefore, hafter⟩ := walk_put ht hfree e
    -- No older entry of this home lies beyond its first free slot.
    have hbeyond : (((m.walk (m.home e.1)).drop (t + 1)).reduceOption.filter
        fun x => m.home x.1 = m.home e.1) = [] := by
      refine List.filter_eq_nil_iff.mpr fun x hx => ?_
      rw [List.reduceOption_mem_iff] at hx
      have hchain := h.chained _ hi x (by
        rw [hbefore, dropWhile_append_none htaken]
        exact List.mem_cons_of_mem _ hx)
      simpa using hchain
    rw [hbefore, List.reduceOption_append, List.reduceOption_cons_of_none, List.filter_append,
      hbeyond, List.append_nil] at hold
    rw [hafter, List.reduceOption_append, List.reduceOption_cons_of_some, List.filter_append,
      List.filter_cons_of_pos (by simp), hbeyond, hold, List.filter_append,
      List.filter_cons_of_pos (by simp)]
    rfl
  · obtain ⟨u, hu, hplace⟩ := exists_place hi (Nat.mod_lt (t + m.home e.1) h.pos)
    rw [← hplace] at hfree ⊢
    obtain ⟨hbefore, hafter⟩ := walk_put hu hfree e
    rw [hbefore, List.reduceOption_append, List.reduceOption_cons_of_none, List.filter_append]
      at hold
    rw [hafter, List.reduceOption_append, List.reduceOption_cons_of_some, List.filter_append,
      List.filter_cons_of_neg (by simpa using he), hold, List.filter_append,
      List.filter_cons_of_neg (by simpa using he), List.filter_nil, List.append_nil]

/-- An entry that fills the first free slot of its walk is the last of the table. -/
theorem Holds.put (h : m.Holds es) (ht : t < m.capacity)
    (hfree : m.slots[(t + m.home e.1) % m.capacity]? = some none)
    (htaken : ∀ slot ∈ (m.walk (m.home e.1)).take t, slot.isSome) :
    (m.put ((t + m.home e.1) % m.capacity) e).Holds (es ++ [e]) where
  pos := by rw [capacity_put]; exact h.pos
  perm := (entries_put_perm ht hfree).trans (h.perm.append_right [e])
  chained := by
    intro i hi x hmem
    rw [capacity_put] at hi
    rw [home_put]
    exact h.chained_put ht hfree htaken hi hmem
  inOrder := by
    intro i hi
    rw [capacity_put] at hi
    simp only [home_put]
    exact h.inOrder_put ht hfree htaken hi

/-! ## Inserts and look-ups -/

/-- A key with a free slot in its walk goes to the first. -/
theorem insert_eq_of_some [JoinKey K] {key : K} {row : S} {p : Nat}
    (hkey : key ≠ JoinKey.reserved K) (h : m.firstFree? m.capacity (m.home key) = some p) :
    m.insert key row = (m.put p (key, row), true) := by
  rw [insert, h]
  dsimp only
  rw [if_neg hkey]
  rfl

/-- A table with fewer entries than slots accepts an entry. -/
theorem Holds.insert [JoinKey K] (h : m.Holds es) {key : K} (row : S)
    (hkey : key ≠ JoinKey.reserved K) (hroom : es.length < m.capacity) :
    ∃ m', m.insert key row = (m', true) ∧ m'.Holds (es ++ [(key, row)]) ∧
      m'.capacity = m.capacity ∧ m'.keying = m.keying := by
  cases hfirst : m.firstFree? m.capacity (m.home key) with
  | none =>
    -- No free slot on the whole walk would mean as many entries as slots.
    have htaken := firstFree?_eq_none (Nat.le_refl _) (home_lt h.pos key) hfirst
    rw [List.take_of_length_le (Nat.le_of_eq (length_walk m _))] at htaken
    have hlen := (reduceOption_walk_perm m (m.home key)).length_eq
    rw [List.reduceOption_length_eq_iff.mpr htaken, length_walk, h.perm.length_eq] at hlen
    omega
  | some p =>
    obtain ⟨t, ht, rfl, hfree, htaken⟩ :=
      firstFree?_eq_some (Nat.le_refl _) (home_lt h.pos key) hfirst
    exact ⟨_, insert_eq_of_some hkey hfirst, h.put (e := (key, row)) ht hfree htaken,
      capacity_put .., rfl⟩

/-- A full table refuses an entry and stays as it is. -/
theorem Holds.insert_full [JoinKey K] (h : m.Holds es) {key : K} {row : S}
    (hfull : m.capacity ≤ es.length) : m.insert key row = (m, false) := by
  cases hfirst : m.firstFree? m.capacity (m.home key) with
  | none => rw [Multimap.insert, hfirst]
  | some p =>
    obtain ⟨t, ht, rfl, hfree, htaken⟩ :=
      firstFree?_eq_some (Nat.le_refl _) (home_lt h.pos key) hfirst
    obtain ⟨hwalk, -⟩ := walk_put ht hfree (key, row)
    have hlt : (m.walk (m.home key)).reduceOption.length < (m.walk (m.home key)).length := by
      rw [List.reduceOption_length_lt_iff, hwalk]
      exact List.mem_append_right _ List.mem_cons_self
    rw [(reduceOption_walk_perm m _).length_eq, h.perm.length_eq, length_walk] at hlt
    omega

/-- A look-up finds the rows under equal keys, in the order of their inserts. -/
theorem Holds.find (h : m.Holds es) (hlaw : m.keying.Lawful) (key : K) :
    m.find key = (es.filter fun e => m.keying.equal e.1 key).map Prod.snd := by
  have hhome := home_lt h.pos key
  have hsame : ∀ e : K × S, m.keying.equal e.1 key = true → m.home e.1 = m.home key := by
    intro e he
    rw [home, home, hlaw _ _ he]
  have hbeyond : (((m.walk (m.home key)).dropWhile Option.isSome).reduceOption.filter
      fun e => m.keying.equal e.1 key) = [] := by
    refine List.filter_eq_nil_iff.mpr fun e he heq => ?_
    rw [List.reduceOption_mem_iff] at he
    exact h.chained _ hhome e he (hsame e heq)
  -- Among the entries of the home, the order of the walk is that of the inserts.
  have hwhole : ∀ l : List (K × S), (l.filter fun e => m.keying.equal e.1 key) =
      (l.filter fun e => m.home e.1 = m.home key).filter fun e => m.keying.equal e.1 key := by
    intro l
    rw [List.filter_filter]
    refine List.filter_congr fun e _ => ?_
    cases heq : m.keying.equal e.1 key with
    | false => rfl
    | true => simp [hsame e heq]
  rw [Multimap.find, rowsFrom_eq (Nat.le_refl _) hhome,
    List.take_of_length_le (Nat.le_of_eq (length_walk m _))]
  congr 1
  calc (((m.walk (m.home key)).takeWhile Option.isSome).reduceOption.filter
        fun e => m.keying.equal e.1 key)
      = ((m.walk (m.home key)).reduceOption.filter fun e => m.keying.equal e.1 key) := by
        conv_rhs => rw [← List.takeWhile_append_dropWhile (p := Option.isSome)
          (l := m.walk (m.home key))]
        rw [List.reduceOption_append, List.filter_append, hbeyond, List.append_nil]
    _ = (es.filter fun e => m.keying.equal e.1 key) := by
        rw [hwhole, h.inOrder _ hhome, ← hwhole]

theorem Holds.length_find_le (h : m.Holds es) (key : K) : (m.find key).length ≤ es.length := by
  rw [Multimap.find, rowsFrom_eq (Nat.le_refl _) (home_lt h.pos key), List.length_map,
    ← h.perm.length_eq, ← (reduceOption_walk_perm m _).length_eq]
  refine Nat.le_trans (List.length_filter_le ..) ?_
  exact (((List.takeWhile_sublist _).trans (List.take_sublist ..)).filterMap id).length_le

/-- Whatever the keying, a look-up finds rows of entries only. -/
theorem Holds.mem_find (h : m.Holds es) {key : K} {row : S} (hrow : row ∈ m.find key) :
    ∃ k, (k, row) ∈ es := by
  rw [Multimap.find, rowsFrom_eq (Nat.le_refl _) (home_lt h.pos key), List.mem_map] at hrow
  obtain ⟨e, he, rfl⟩ := hrow
  have hwalk := (List.mem_filter.mp he).1
  rw [List.reduceOption_mem_iff] at hwalk
  have hall : e ∈ (m.walk (m.home key)).reduceOption := by
    rw [List.reduceOption_mem_iff]
    exact List.mem_of_mem_take ((List.takeWhile_sublist _).subset hwalk)
  exact ⟨e.1, h.perm.mem_iff.mp ((reduceOption_walk_perm m _).mem_iff.mp hall)⟩

end Holds

end Multimap
end GridOps
