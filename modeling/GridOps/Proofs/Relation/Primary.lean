import GridOps.Proofs.Join.BuildOutcome
import GridOps.Proofs.Relation.Shuffle
import GridOps.Relation.Generate
import Mathlib.Data.Int.ModEq

/-!
Unique primary keys.

The key at place `i` of `n` is `i + 1` or `n` more than that, which no other place can draw.  So the
numbers are distinct whatever is drawn (`nodup_primaryNumbers`), and what depends on the draws
besides their order is only how many of them lie above `n`.

The two generators differ in how they write: one place after the other, or all keys at once after
they are made.  They fail for the same draws, and on the same draws they leave the same keys in some
order (`primary_outcome`).  The reserved key is above the largest that they accept.
-/

namespace GridOps

namespace Relation

/-! ## Writing keys -/

section Writing

variable {K : Type} {f : Nat → Except RelationError K} {g : Nat → K} {places : List Nat}

theorem writeEach_ok (h : ∀ i ∈ places, f i = .ok (g i)) (keys : Array K) :
    writeEach f places keys =
      .ok () (places.foldl (fun keys i => keys.setIfInBounds i (g i)) keys) := by
  induction places generalizing keys with
  | nil => rfl
  | cons i rest ih =>
    rw [writeEach, h i List.mem_cons_self]
    exact ih (fun j hj => h j (List.mem_cons_of_mem _ hj)) _

/-- The places before the first that fails are written. -/
theorem writeEach_error {i : Nat} (hi : i ∈ places) {e : RelationError} (h : f i = .error e)
    (keys : Array K) :
    ∃ j ∈ places, ∃ e keys', f j = .error e ∧ writeEach f places keys = .error e keys' := by
  induction places generalizing keys with
  | nil => cases hi
  | cons j rest ih =>
    cases hj : f j with
    | error e' =>
      refine ⟨j, List.mem_cons_self, e', keys, hj, ?_⟩
      rw [writeEach, hj]
      rfl
    | ok key =>
      have hrest : i ∈ rest := (List.mem_cons.mp hi).resolve_left fun heq => by
        rw [heq, hj] at h
        cases h
      obtain ⟨k, hk, e', keys', he, hwrite⟩ := ih hrest (keys.setIfInBounds j key)
      refine ⟨k, List.mem_cons_of_mem _ hk, e', keys', he, ?_⟩
      rw [writeEach, hj]
      exact hwrite

/-- Writing to every place leaves nothing of what was there. -/
theorem foldl_setIfInBounds_range (g : Nat → K) (keys : Array K) :
    ((List.range keys.size).foldl (fun keys i => keys.setIfInBounds i (g i)) keys).toList =
      (List.range keys.size).map g := by
  have hfirst : ∀ n, let keys' :=
      (List.range n).foldl (fun keys i => keys.setIfInBounds i (g i)) keys
      keys'.size = keys.size ∧ ∀ i, i < n → i < keys.size → keys'[i]? = some (g i) := by
    intro n
    induction n with
    | zero => exact ⟨rfl, fun i hi => absurd hi (Nat.not_lt_zero i)⟩
    | succ n ih =>
      obtain ⟨hsize, hplaces⟩ := ih
      rw [List.range_succ, List.foldl_append]
      refine ⟨Array.size_setIfInBounds.trans hsize, fun i hi hlt => ?_⟩
      rw [List.foldl_cons, List.foldl_nil, Array.getElem?_setIfInBounds]
      split
      · rename_i hni
        rw [if_pos (by omega), hni]
      · exact hplaces i (by omega) hlt
  obtain ⟨hsize, hplaces⟩ := hfirst keys.size
  refine List.ext_getElem? fun i => ?_
  rw [Array.getElem?_toList]
  by_cases hi : i < keys.size
  · rw [hplaces i hi hi, List.getElem?_map, List.getElem?_range hi]
    rfl
  · rw [Array.getElem?_eq_none (by omega), List.getElem?_eq_none (by simp; omega)]

theorem mapM_ok (h : ∀ i ∈ places, f i = .ok (g i)) : places.mapM f = .ok (places.map g) := by
  induction places with
  | nil => rfl
  | cons i rest ih =>
    rw [List.mapM_cons, h i List.mem_cons_self, ih fun j hj => h j (List.mem_cons_of_mem _ hj)]
    rfl

theorem mapM_error {i : Nat} (hi : i ∈ places) {e : RelationError} (h : f i = .error e) :
    ∃ j ∈ places, ∃ e, f j = .error e ∧ places.mapM f = .error e := by
  induction places with
  | nil => cases hi
  | cons j rest ih =>
    cases hj : f j with
    | error e' =>
      refine ⟨j, List.mem_cons_self, e', hj, ?_⟩
      rw [List.mapM_cons, hj]
      rfl
    | ok key =>
      have hrest : i ∈ rest := (List.mem_cons.mp hi).resolve_left fun heq => by
        rw [heq, hj] at h
        cases h
      obtain ⟨k, hk, e', he, hmap⟩ := ih hrest
      refine ⟨k, List.mem_cons_of_mem _ hk, e', he, ?_⟩
      rw [List.mapM_cons, hj, hmap]
      rfl

end Writing

end Relation

variable {K : Type} [JoinKey K]

namespace Relation

/-! ## The numbers -/

/-- The numbers of `n` primary keys, in the order of their places. -/
def primaryNumbers (selection : Draws) (selectivity n : Nat) : List Nat :=
  (List.range n).map (primaryNumber selection selectivity n)

section Numbers

variable {selection : Draws} {selectivity n i : Nat}

theorem primaryNumber_eq (selection : Draws) (selectivity n i : Nat) :
    primaryNumber selection selectivity n i = i + 1 ∨
      primaryNumber selection selectivity n i = i + 1 + n := by
  unfold primaryNumber
  split
  · exact Or.inl rfl
  · exact Or.inr rfl

theorem primaryNumber_of_full (h : 100 ≤ selectivity) :
    primaryNumber selection selectivity n i = i + 1 :=
  if_pos (Nat.le_trans (selection.between_le (by decide) i) h)

theorem primaryNumber_of_none (h : selectivity = 0) :
    primaryNumber selection selectivity n i = n + 1 + i := by
  have hpercent : ¬selection.percent i ≤ selectivity := by
    have hle : 1 ≤ selection.percent i := selection.le_between 1 100 i
    omega
  rw [primaryNumber, if_neg hpercent]
  omega

theorem mem_primaryNumbers {number : Nat} : number ∈ primaryNumbers selection selectivity n ↔
    ∃ i < n, primaryNumber selection selectivity n i = number := by
  simp [primaryNumbers]

theorem le_of_mem_primaryNumbers {number : Nat}
    (h : number ∈ primaryNumbers selection selectivity n) : 1 ≤ number ∧ number ≤ 2 * n := by
  obtain ⟨i, hi, rfl⟩ := mem_primaryNumbers.mp h
  have := primaryNumber_eq selection selectivity n i
  omega

/-- No two places draw from the same two numbers. -/
theorem nodup_primaryNumbers (selection : Draws) (selectivity n : Nat) :
    (primaryNumbers selection selectivity n).Nodup := by
  refine List.nodup_range.map_on fun i hi j hj hij => ?_
  rw [List.mem_range] at hi hj
  have := primaryNumber_eq selection selectivity n i
  have := primaryNumber_eq selection selectivity n j
  omega

theorem primaryNumbers_of_full (h : 100 ≤ selectivity) :
    primaryNumbers selection selectivity n = List.range' 1 n := by
  rw [List.range'_eq_map_range]
  exact List.map_congr_left fun i _ => (primaryNumber_of_full h).trans (Nat.add_comm i 1)

theorem primaryNumbers_of_none (h : selectivity = 0) :
    primaryNumbers selection selectivity n = List.range' (n + 1) n := by
  rw [List.range'_eq_map_range]
  exact List.map_congr_left fun i _ => primaryNumber_of_none h

/-- Each number leaves the remainder of its place. -/
theorem forall₂_primaryNumbers (selection : Draws) (selectivity n : Nat) :
    List.Forall₂ (fun number place : Nat => (number : Int) ≡ place [ZMOD n])
      (primaryNumbers selection selectivity n) (List.range' 1 n) := by
  rw [List.range'_eq_map_range, primaryNumbers, List.forall₂_map_left_iff,
    List.forall₂_map_right_iff, List.forall₂_same]
  intro i _
  rw [Int.natCast_modEq_iff]
  rcases primaryNumber_eq selection selectivity n i with h | h <;> rw [h, Nat.add_comm 1 i]
  exact Nat.add_modEq_right

end Numbers

/-! ## The keys -/

/-- What `n` primary keys have in common, whatever is drawn: they are distinct, lie in `1 … 2 * n`,
are not reserved, and leave the remainders of `1 … n`.  With a selectivity of all or of none they
are the numbers up to `n` or the numbers above.  No build of a table is refused for them. -/
structure ArePrimary (selectivity n : Nat) (keys : Array K) : Prop where
  size : keys.size = n
  distinct : keys.toList.Nodup
  range : ∀ key ∈ keys, 1 ≤ JoinKey.toInt key ∧ JoinKey.toInt key ≤ 2 * n
  unreserved : JoinKey.reserved K ∉ keys
  residues : ∃ places : List Nat, places.Perm (List.range' 1 n) ∧
    List.Forall₂ (fun key (place : Nat) => JoinKey.toInt key ≡ place [ZMOD n]) keys.toList places
  matching : 100 ≤ selectivity →
    (keys.toList.map JoinKey.toInt).Perm ((List.range' 1 n).map Int.ofNat)
  apart : selectivity = 0 →
    (keys.toList.map JoinKey.toInt).Perm ((List.range' (n + 1) n).map Int.ofNat)
  accepted : ∀ {S : Type} [Word S] (table : Multimap K S) (block : UInt32) (d : Device)
    (count : Nat) (key : Int), (table.build block keys d).1 ≠ .error (.reservedKeys count key)

/-- The primary keys in the order of their places. -/
def primaryKeys (K : Type) [JoinKey K] (selection : Draws) (selectivity n : Nat) : List K :=
  (primaryNumbers selection selectivity n).map fun number : Nat => JoinKey.ofInt number

theorem length_primaryKeys (K : Type) [JoinKey K] (selection : Draws) (selectivity n : Nat) :
    (primaryKeys K selection selectivity n).length = n := by
  simp [primaryKeys, primaryNumbers]

section Keys

variable {selection : Draws} {selectivity n : Nat}

/-- All of `n` drawn numbers are numbers of keys. -/
def Fits (K : Type) [JoinKey K] (selection : Draws) (selectivity n : Nat) : Prop :=
  ∀ i < n, primaryNumber selection selectivity n i ≤ (JoinKey.type K).largestKey

theorem Fits.map_toInt (h : Fits K selection selectivity n) :
    (primaryKeys K selection selectivity n).map JoinKey.toInt =
      (primaryNumbers selection selectivity n).map Int.ofNat := by
  rw [primaryKeys, List.map_map]
  refine List.map_congr_left fun number hnumber => ?_
  obtain ⟨i, hi, rfl⟩ := mem_primaryNumbers.mp hnumber
  exact JoinKey.toInt_ofNat (h i hi)

/-- Every arrangement of the keys has what they have in common. -/
theorem Fits.arePrimary (h : Fits K selection selectivity n) {keys : Array K}
    (hperm : keys.toList.Perm (primaryKeys K selection selectivity n)) :
    ArePrimary selectivity n keys := by
  have hints : (keys.toList.map JoinKey.toInt).Perm
      ((primaryNumbers selection selectivity n).map Int.ofNat) :=
    h.map_toInt ▸ hperm.map _
  have hnumber : ∀ key ∈ keys, ∃ number ∈ primaryNumbers selection selectivity n,
      key = JoinKey.ofInt number ∧ number ≤ (JoinKey.type K).largestKey := by
    intro key hkey
    obtain ⟨number, hnumber, rfl⟩ :=
      List.mem_map.mp (hperm.mem_iff.mp (Array.mem_toList_iff.mpr hkey))
    obtain ⟨i, hi, rfl⟩ := mem_primaryNumbers.mp hnumber
    exact ⟨_, hnumber, rfl, h i hi⟩
  have hunreserved : JoinKey.reserved K ∉ keys := by
    intro hkey
    obtain ⟨number, -, heq, hle⟩ := hnumber _ hkey
    exact JoinKey.ofNat_ne_reserved hle heq.symm
  constructor
  case size => rw [← Array.length_toList, hperm.length_eq, length_primaryKeys]
  case distinct =>
    refine List.Nodup.of_map JoinKey.toInt (hints.nodup_iff.mpr ?_)
    exact (nodup_primaryNumbers selection selectivity n).map fun _ _ => Int.ofNat.inj
  case range =>
    intro key hkey
    obtain ⟨number, hmem, rfl, hfits⟩ := hnumber key hkey
    have hle := le_of_mem_primaryNumbers hmem
    rw [JoinKey.toInt_ofNat hfits]
    omega
  case unreserved => exact hunreserved
  case residues =>
    -- The places in the order of the keys: an arrangement of one list arranges a related one.
    have hplaces : List.Forall₂ (fun (number : Int) (place : Nat) => number ≡ place [ZMOD n])
        ((primaryKeys K selection selectivity n).map JoinKey.toInt) (List.range' 1 n) := by
      rw [h.map_toInt, List.forall₂_map_left_iff]
      exact forall₂_primaryNumbers selection selectivity n
    rw [List.forall₂_map_left_iff] at hplaces
    obtain ⟨places, hforall, hperm'⟩ := List.perm_comp_forall₂ hperm hplaces
    exact ⟨places, hperm', hforall⟩
  case matching =>
    intro hfull
    rwa [primaryNumbers_of_full hfull] at hints
  case apart =>
    intro hnone
    rwa [primaryNumbers_of_none hnone] at hints
  case accepted => exact Multimap.build_ne_reservedKeys hunreserved

end Keys

/-! ## The generators -/

section Generators

variable {selection : Draws} {selectivity : Nat} {keys : Array K}

theorem Fits.primaryKey (h : Fits K selection selectivity keys.size) :
    ∀ i ∈ List.range keys.size, primaryKey K selection selectivity keys.size i =
      .ok (JoinKey.ofInt (primaryNumber selection selectivity keys.size i)) := fun i hi =>
  keyOfNat_ok (h i (List.mem_range.mp hi))

theorem map_range_ofInt (K : Type) [JoinKey K] (selection : Draws) (selectivity n : Nat) :
    ((List.range n).map fun i => (JoinKey.ofInt (primaryNumber selection selectivity n i) : K)) =
      primaryKeys K selection selectivity n := by
  rw [primaryKeys, primaryNumbers, List.map_map]
  rfl

/-- Where a number is too large, there is a place at which making the key fails. -/
theorem exists_primaryKey_error (h : ¬Fits K selection selectivity keys.size) :
    ∃ i ∈ List.range keys.size, ∃ e,
      primaryKey K selection selectivity keys.size i = .error e := by
  obtain ⟨i, hi, hlarge⟩ : ∃ i < keys.size, (JoinKey.type K).largestKey <
      primaryNumber selection selectivity keys.size i := by simpa [Fits] using h
  exact ⟨i, List.mem_range.mpr hi, _, keyOfNat_error hlarge⟩

theorem kind_of_primaryKey {n i : Nat} {e : RelationError}
    (h : primaryKey K selection selectivity n i = .error e) : e.kind = .integerOverflow := by
  unfold primaryKey at h
  by_cases hle : primaryNumber selection selectivity n i ≤ (JoinKey.type K).largestKey
  · rw [keyOfNat_ok hle] at h
    cases h
  · rw [keyOfNat_error (Nat.lt_of_not_le hle)] at h
    cases h
    rfl

/-- The one generator writes place by place, and stops at the first that fails. -/
theorem primary_eq (selection order : Draws) (selectivity : Nat) (keys : Array K) :
    primary selection order selectivity keys =
      match writeEach (primaryKey K selection selectivity keys.size) (List.range keys.size)
          keys with
      | .ok _ keys' => .ok () (order.shuffle keys')
      | .error e keys' => .error e keys' := by
  change EStateM.bind (writeEach _ _) (fun _ => modify order.shuffle) keys = _
  rw [EStateM.bind]
  cases writeEach (primaryKey K selection selectivity keys.size) (List.range keys.size) keys <;> rfl

/-- The other writes only when all keys are made. -/
theorem primaryByTag_eq (selection order : Draws) (selectivity : Nat) (keys : Array K) :
    primaryByTag selection order selectivity keys =
      match (List.range keys.size).mapM (primaryKey K selection selectivity keys.size) with
      | .ok made => .ok () (order.sortByTag made).toArray
      | .error e => .error e keys := by
  change (match (List.range keys.size).mapM (primaryKey K selection selectivity keys.size) with
    | .ok made => set (order.sortByTag made).toArray
    | .error e => throw e : Fill K Unit) keys = _
  cases (List.range keys.size).mapM (primaryKey K selection selectivity keys.size) <;> rfl

theorem primary_ok (h : Fits K selection selectivity keys.size) (order : Draws) :
    primary selection order selectivity keys =
      .ok () (order.shuffle (primaryKeys K selection selectivity keys.size).toArray) := by
  rw [primary_eq, writeEach_ok h.primaryKey, ← map_range_ofInt, ← foldl_setIfInBounds_range]

theorem primaryByTag_ok (h : Fits K selection selectivity keys.size) (order : Draws) :
    primaryByTag selection order selectivity keys =
      .ok () (order.sortByTag (primaryKeys K selection selectivity keys.size)).toArray := by
  rw [primaryByTag_eq, mapM_ok h.primaryKey, ← map_range_ofInt]

theorem primary_error (h : ¬Fits K selection selectivity keys.size) (order : Draws) :
    ∃ e keys', primary selection order selectivity keys = .error e keys' ∧
      e.kind = .integerOverflow := by
  obtain ⟨i, hi, e, he⟩ := exists_primaryKey_error h
  obtain ⟨j, -, e', keys', he', hwrite⟩ := writeEach_error hi he keys
  refine ⟨e', keys', ?_, kind_of_primaryKey he'⟩
  rw [primary_eq, hwrite]

theorem primaryByTag_error (h : ¬Fits K selection selectivity keys.size) (order : Draws) :
    ∃ e, primaryByTag selection order selectivity keys = .error e keys ∧
      e.kind = .integerOverflow := by
  obtain ⟨i, hi, e, he⟩ := exists_primaryKey_error h
  obtain ⟨j, -, e', he', hmap⟩ := mapM_error hi he
  refine ⟨e', ?_, kind_of_primaryKey he'⟩
  rw [primaryByTag_eq, hmap]

/-- Both generators fail if some drawn number exceeds the largest key, the second one without
writing anything.  Otherwise both succeed, and what they leave are primary keys, the same in some
order.  Every order of them comes out of each generator. -/
theorem primary_outcome (selection : Draws) (selectivity : Nat) (keys : Array K) :
    (¬Fits K selection selectivity keys.size → ∀ order,
      (∃ e keys', primary selection order selectivity keys = .error e keys' ∧
        e.kind = .integerOverflow) ∧
      ∃ e, primaryByTag selection order selectivity keys = .error e keys ∧
        e.kind = .integerOverflow) ∧
    (Fits K selection selectivity keys.size →
      (∀ order order', ∃ keys₁ keys₂ : Array K,
        primary selection order selectivity keys = .ok () keys₁ ∧
        primaryByTag selection order' selectivity keys = .ok () keys₂ ∧
        ArePrimary selectivity keys.size keys₁ ∧ ArePrimary selectivity keys.size keys₂ ∧
        keys₁.toList.Perm keys₂.toList) ∧
      (keys.size ≤ UInt64.size → ∀ keys' : Array K,
        keys'.toList.Perm (primaryKeys K selection selectivity keys.size) →
        (∃ order, primary selection order selectivity keys = .ok () keys') ∧
        ∃ order, primaryByTag selection order selectivity keys = .ok () keys')) := by
  have hlen := length_primaryKeys K selection selectivity keys.size
  refine ⟨fun h order => ⟨primary_error h order, primaryByTag_error h order⟩,
    fun h => ⟨fun order order' => ?_, fun hsize keys' hperm => ⟨?_, ?_⟩⟩⟩
  · have hshuffled := Draws.shuffle_perm order
      (primaryKeys K selection selectivity keys.size).toArray
    have hsorted := Draws.sortByTag_perm order' (primaryKeys K selection selectivity keys.size)
    exact ⟨_, _, primary_ok h order, primaryByTag_ok h order', h.arePrimary hshuffled,
      h.arePrimary hsorted, hshuffled.trans hsorted.symm⟩
  · have harray : keys'.toList.Perm
      (primaryKeys K selection selectivity keys.size).toArray.toList :=
      hperm
    obtain ⟨order, horder⟩ := Draws.exists_shuffle_eq (by rwa [List.size_toArray, hlen]) harray
    exact ⟨order, (primary_ok h order).trans (congrArg _ horder)⟩
  · obtain ⟨order, horder⟩ := Draws.exists_sortByTag_eq (by rwa [hlen]) hperm
    refine ⟨order, (primaryByTag_ok h order).trans ?_⟩
    rw [horder]

/-- Three 32-bit keys are made from any draws.  With all numbers below, as many keys as there are
positive ones are one too many. -/
theorem primary_outcome_edges :
    (∀ selection order : Draws, ∃ keys : Array Int32,
      primary selection order 50 (Array.replicate 3 0) = .ok () keys ∧ keys.toList.Nodup ∧
        ∀ key ∈ keys, JoinKey.toInt key ≤ 6) ∧
    ∀ selection order : Draws, ∃ e,
      primaryByTag selection order 100 (Array.replicate 2147483647 (0 : Int32)) =
        .error e (Array.replicate 2147483647 0) ∧ e.kind = .integerOverflow := by
  constructor
  · intro selection order
    have hfits : Fits Int32 selection 50 (Array.replicate 3 (0 : Int32)).size := by
      rw [Array.size_replicate]
      intro i hi
      have hlargest : (JoinKey.type Int32).largestKey = 2147483646 := rfl
      have := primaryNumber_eq selection 50 3 i
      omega
    obtain ⟨keys, -, hok, -, hprimary, -⟩ :=
      ((primary_outcome selection 50 (Array.replicate 3 (0 : Int32))).2 hfits).1 order order
    exact ⟨keys, hok, hprimary.distinct, fun key hkey => (hprimary.range key hkey).2⟩
  · intro selection order
    have hlarge : ¬Fits Int32 selection 100 (Array.replicate 2147483647 (0 : Int32)).size := by
      rw [Array.size_replicate]
      intro hfits
      have hlast := hfits 2147483646 (by decide)
      rw [primaryNumber_of_full (Nat.le_refl _)] at hlast
      exact absurd hlast (by decide)
    exact ((primary_outcome selection 100 (Array.replicate 2147483647 (0 : Int32))).1 hlarge
      order).2

end Generators

end Relation
end GridOps
