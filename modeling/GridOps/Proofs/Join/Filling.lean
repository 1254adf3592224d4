import GridOps.Proofs.Join.Walk

/-!
Filling the free slots of a multimap.

An entry goes to the first free slot of its walk, the one before which all are taken
(`firstFree?_of_taken`).  `Filled m claims g` says that `g` is `m` with entries in some slots that
were free.
-/

namespace GridOps

namespace Multimap

variable {K S : Type} {m : Multimap K S} {es : List (K × S)}

/-! ## Taken slots -/

/-- Slot `p` has an entry. -/
def Taken (m : Multimap K S) (p : Nat) : Prop := ∃ e, m.slots[p]? = some (some e)

theorem taken_or_free {p : Nat} (hp : p < m.capacity) :
    m.Taken p ∨ m.slots[p]? = some none := by
  obtain ⟨slot, hslot⟩ := exists_slot hp
  cases slot with
  | none => exact Or.inr hslot
  | some e => exact Or.inl ⟨e, hslot⟩

theorem slots_put {p : Nat} (hp : p < m.capacity) (e : K × S) (q : Nat) :
    (m.put p e).slots[q]? = if p = q then some (some e) else m.slots[q]? := by
  have hsize : p < m.slots.size := hp
  rw [put, Array.getElem?_setIfInBounds]
  by_cases h : p = q
  · rw [if_pos h, if_pos h, if_pos (h ▸ hsize)]
  · rw [if_neg h, if_neg h]

theorem Taken.put {p q : Nat} (h : m.Taken q) (hp : p < m.capacity) (e : K × S) :
    (m.put p e).Taken q := by
  unfold Taken
  rw [slots_put hp]
  by_cases hpq : p = q
  · exact ⟨e, if_pos hpq⟩
  · rwa [if_neg hpq]

/-- The first free slot of a walk is the one before which all are taken. -/
theorem firstFree?_of_taken {n i u : Nat} (hi : i < m.capacity) (hu : u < n)
    (htaken : ∀ v < u, m.Taken ((v + i) % m.capacity))
    (hfree : m.slots[(u + i) % m.capacity]? = some none) :
    m.firstFree? n i = some ((u + i) % m.capacity) := by
  induction n generalizing i u with
  | zero => cases hu
  | succ n ih =>
    cases u with
    | zero =>
      rw [Nat.zero_add, Nat.mod_eq_of_lt hi] at hfree ⊢
      rw [firstFree?, hfree]
    | succ u =>
      obtain ⟨e, he⟩ := htaken 0 (Nat.zero_lt_succ u)
      rw [Nat.zero_add, Nat.mod_eq_of_lt hi] at he
      have hshift : ∀ v, (v + m.after i) % m.capacity = (v + 1 + i) % m.capacity := fun v => by
        rw [after_eq hi, Nat.add_mod_mod, Nat.add_assoc, Nat.add_comm i 1]
      rw [firstFree?, he]
      dsimp only
      rw [← hshift] at hfree ⊢
      refine ih (after_lt hi) (Nat.lt_of_succ_lt_succ hu) (fun v hv => ?_) hfree
      rw [hshift]
      exact htaken (v + 1) (Nat.succ_lt_succ hv)

/-- An entry in the first free slot of its walk is the last of the table. -/
theorem Holds.put_firstFree (h : m.Holds es) {e : K × S} {p : Nat}
    (hp : m.firstFree? m.capacity (m.home e.1) = some p) : (m.put p e).Holds (es ++ [e]) := by
  obtain ⟨t, ht, rfl, hfree, htaken⟩ :=
    firstFree?_eq_some (Nat.le_refl _) (home_lt h.pos e.1) hp
  exact h.put ht hfree htaken

theorem Holds.length_le (h : m.Holds es) : es.length ≤ m.capacity := by
  rw [← h.perm.length_eq]
  exact m.slots.toList.reduceOption_length_le

theorem Holds.length_of_full (h : m.Holds es) (hfull : ∀ p < m.capacity, m.Taken p) :
    es.length = m.capacity := by
  rw [← h.perm.length_eq]
  refine List.reduceOption_length_eq_iff.mpr fun slot hslot => ?_
  obtain ⟨p, hp⟩ := List.mem_iff_getElem?.mp hslot
  rw [Array.getElem?_toList] at hp
  obtain ⟨e, he⟩ := hfull p (lt_capacity hp)
  rw [Option.some.inj (hp.symm.trans he)]
  rfl

/-- The table `g` is `m` with entries in some slots that were free. -/
structure Filled (m : Multimap K S) (claims : List (Nat × (K × S))) (g : Multimap K S) : Prop where
  capacity : g.capacity = m.capacity
  keying : g.keying = m.keying
  taken : ∀ p e, g.slots[p]? = some (some e) ↔ m.slots[p]? = some (some e) ∨ (p, e) ∈ claims
  free : ∀ c ∈ claims, m.slots[c.1]? = some none
  distinct : (claims.map Prod.fst).Nodup

theorem filled_nil (m : Multimap K S) : m.Filled [] m :=
  ⟨rfl, rfl, by simp, by simp, List.nodup_nil⟩

theorem Filled.perm {claims claims' : List (Nat × (K × S))} {g : Multimap K S}
    (h : m.Filled claims g) (hclaims : claims'.Perm claims) : m.Filled claims' g where
  capacity := h.capacity
  keying := h.keying
  taken p e := by rw [h.taken, hclaims.mem_iff]
  free c hc := h.free c (hclaims.mem_iff.mp hc)
  distinct := (hclaims.map Prod.fst).nodup_iff.mpr h.distinct

theorem Filled.put {claims : List (Nat × (K × S))} {g : Multimap K S} (h : m.Filled claims g)
    {p : Nat} (hfree : g.slots[p]? = some none) (e : K × S) :
    m.Filled (claims ++ [(p, e)]) (g.put p e) := by
  have hp := lt_capacity hfree
  have hnew : ∀ e', (p, e') ∉ claims := fun e' hmem => by
    cases hfree.symm.trans ((h.taken p e').mpr (Or.inr hmem))
  have hold : m.slots[p]? = some none := by
    refine (taken_or_free (h.capacity ▸ hp)).resolve_left fun ⟨e', he'⟩ => ?_
    cases hfree.symm.trans ((h.taken p e').mpr (Or.inl he'))
  constructor
  case capacity => rw [capacity_put, h.capacity]
  case keying => exact h.keying
  case taken =>
    intro q e'
    rw [slots_put hp, List.mem_append, List.mem_singleton, Prod.mk.injEq]
    by_cases hq : p = q
    · subst hq
      simp [hold, hnew, eq_comm]
    · simp [if_neg hq, h.taken, Ne.symm hq]
  case free =>
    intro c hc
    rcases List.mem_append.mp hc with hc | hc
    · exact h.free c hc
    · rw [List.mem_singleton.mp hc]
      exact hold
  case distinct =>
    rw [List.map_append, List.map_singleton, List.nodup_append]
    refine ⟨h.distinct, List.nodup_singleton p, fun q hq q' hq' hsame => ?_⟩
    obtain ⟨c, hc, rfl⟩ := List.mem_map.mp hq
    have hplace : c.1 = p := hsame.trans (List.mem_singleton.mp hq')
    refine hnew c.2 ?_
    rw [← hplace]
    exact hc

/-! ## Several inserts -/

section Inserts

variable [JoinKey K]

/-- The table after inserts that happen one after another. -/
def insertAll (m : Multimap K S) (es : List (K × S)) : Multimap K S :=
  es.foldl (fun m e => (m.insert e.1 e.2).1) m

@[simp] theorem insertAll_nil (m : Multimap K S) : m.insertAll [] = m := rfl

theorem insertAll_append (m : Multimap K S) (es es' : List (K × S)) :
    m.insertAll (es ++ es') = (m.insertAll es).insertAll es' := List.foldl_append

/-- A table takes up entries as long as it has free slots. -/
theorem Holds.insertAll (h : m.Holds es) {es' : List (K × S)}
    (hkeys : ∀ e ∈ es', e.1 ≠ JoinKey.reserved K) :
    (m.insertAll es').Holds (es ++ es'.take (m.capacity - es.length)) ∧
      (m.insertAll es').capacity = m.capacity ∧ (m.insertAll es').keying = m.keying := by
  induction es' generalizing m es with
  | nil =>
    rw [List.take_nil, List.append_nil]
    exact ⟨h, rfl, rfl⟩
  | cons e es' ih =>
    obtain ⟨hkey, hkeys⟩ := List.forall_mem_cons.mp hkeys
    rcases Nat.lt_or_ge es.length m.capacity with hroom | hfull
    · obtain ⟨m', hinsert, hm', hcapacity, hkeying⟩ := h.insert e.2 hkey hroom
      obtain ⟨hholds, hcapacity', hkeying'⟩ := ih hm' hkeys
      have hall : m.insertAll (e :: es') = m'.insertAll es' := by
        rw [Multimap.insertAll, List.foldl_cons, hinsert]
        rfl
      have hleft : m.capacity - es.length = m.capacity - (es.length + 1) + 1 := by omega
      rw [hall, hleft, List.take_succ_cons, ← hcapacity, ← hkeying]
      rw [List.length_append, List.append_assoc] at hholds
      exact ⟨hholds, hcapacity', hkeying'⟩
    · have hnone : m.capacity - es.length = 0 := Nat.sub_eq_zero_of_le hfull
      have hall : m.insertAll (e :: es') = m.insertAll es' := by
        rw [Multimap.insertAll, List.foldl_cons, h.insert_full hfull]
        rfl
      have hrest := ih h hkeys
      rw [hnone, List.take_zero] at hrest ⊢
      rwa [hall]

end Inserts

end Multimap

end GridOps
