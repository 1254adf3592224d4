import GridOps.Proofs.Join.Attempt
import GridOps.Proofs.Join.Estimate

/-!
What happens before and around a probe.

A join fails before it has a table, ends early, or has built a table and goes on with it
(`prepare_cases`); which of these, and with which table, does not depend on what follows.  From
this the memory account of a whole join is put together (`execute_balanced`).
-/

namespace GridOps

/-- A side whose keys the host can hold in one array. -/
def KeyColumns.InMemory {K : Type} [JoinKey K] (side : KeyColumns K) : Prop :=
  side.len * (JoinKey.type K).bytes ≤ maxHostBytes

instance {K : Type} [JoinKey K] (side : KeyColumns K) : Decidable side.InMemory :=
  inferInstanceAs (Decidable (_ ≤ _))

theorem KeyColumns.InMemory.len_le {K : Type} [JoinKey K] {side : KeyColumns K}
    (h : side.InMemory) : side.len + UInt32.size ≤ UInt64.size := by
  have hbytes : 4 ≤ (JoinKey.type K).bytes := by cases JoinKey.type K <;> decide
  have hle : side.len * 4 ≤ maxHostBytes := Nat.le_trans (Nat.mul_le_mul_left _ hbytes) h
  have hhost : maxHostBytes = 9223372036854775807 := rfl
  have hsize : UInt32.size = 4294967296 := rfl
  have hsize64 : UInt64.size = 18446744073709551616 := rfl
  omega

namespace Keying

variable {K : Type} [JoinKey K]

theorem default_lawful : (default : Keying K).Lawful := by
  intro a b h
  rw [of_decide_eq_true h]

theorem sameKey_comm (a b : K) : sameKey a b = sameKey b a := by
  unfold sameKey
  rw [decide_eq_decide]
  exact eq_comm

end Keying

namespace Multimap

variable {K S : Type} [JoinKey K] [Word S]

theorem allocate_balanced (capacity : Nat) (keying : Keying K) :
    DeviceM.Balanced (allocate (K := K) (S := S) capacity keying)
      fun _ => capacity * slotBytes K S := by
  unfold allocate
  split
  · exact .fail _
  · refine .keep (.mapError (DeviceM.reserveItems_balanced _ _)) fun _ => ⟨?_, ?_⟩
    · intro d a d' h
      split at h
      · cases h
      · cases h
        exact .refl d
    · intro d e d' h
      split at h
      · cases h
        exact .refl d
      · cases h

theorem allocate_ok {capacity : Nat} {keying : Keying K} {m : Multimap K S} {d d' : Device}
    (h : allocate capacity keying d = .ok m d') : 0 < capacity ∧ m = free capacity keying := by
  unfold allocate at h
  split at h
  · cases h
  · rename_i hpos
    obtain ⟨_, d₁, -, h⟩ := DeviceM.bind_ok h
    have h := DeviceM.keepingBytes_ok h
    split at h
    · cases h
    · cases h
      exact ⟨Nat.pos_of_ne_zero hpos, rfl⟩

end Multimap

namespace HashJoin

variable {K S : Type} [Word S] {j : HashJoin} {left right : KeyColumns K}

/-! ## Checks -/

/-- Both sides being so, the probed side is so. -/
theorem probed_of {P : KeyColumns K → Prop} (hleft : P left) (hright : P right) (j : HashJoin) :
    P (j.probed left right) := by
  unfold probed
  split
  · exact hright
  · exact hleft

theorem built_of {P : KeyColumns K → Prop} (hleft : P left) (hright : P right) (j : HashJoin) :
    P (j.built left right) := by
  unfold built
  split
  · exact hleft
  · exact hright

/-- The sides alone show that the result is empty. -/
def TriviallyEmpty (j : HashJoin) (left right : KeyColumns K) : Prop :=
  (j.probed left right).len = 0 ∨ ((j.built left right).len = 0 ∧ j.joinType = .inner)

instance (j : HashJoin) (left right : KeyColumns K) : Decidable (j.TriviallyEmpty left right) :=
  inferInstanceAs (Decidable (_ ∨ _))

/-- The sides have been accepted. -/
structure Accepted (S : Type) [Word S] (left right : KeyColumns K) : Prop where
  valid : left.validate right = .ok ()
  leftRows : checkRows S left = .ok ()
  rightRows : checkRows S right = .ok ()

theorem checkRows_ok {side : KeyColumns K} (h : checkRows S side = .ok ()) :
    side.len < Word.toNat (Word.top S) := by
  unfold checkRows at h
  split at h
  · cases h
  · rename_i hlt
    exact Nat.lt_of_not_le hlt

theorem Accepted.compatible (h : Accepted S left right) (j : HashJoin) :
    (j.probed left right).Compatible (j.built left right) := by
  have hc := KeyColumns.validate_ok h.valid
  unfold probed built
  split
  · exact hc.symm
  · exact hc

theorem Accepted.probed_lt (h : Accepted S left right) (j : HashJoin) :
    (j.probed left right).len < Word.toNat (Word.top S) :=
  probed_of (P := (·.len < Word.toNat (Word.top S))) (checkRows_ok h.leftRows)
    (checkRows_ok h.rightRows) j

theorem Accepted.built_lt (h : Accepted S left right) (j : HashJoin) :
    (j.built left right).len < Word.toNat (Word.top S) :=
  built_of (P := (·.len < Word.toNat (Word.top S))) (checkRows_ok h.leftRows)
    (checkRows_ok h.rightRows) j

theorem probeTable_balanced (j : HashJoin) (flip : Bool) (table : Multimap K S)
    (probe build : KeyColumns K) :
    DeviceM.Balanced (j.probeTable flip table probe build) JoinResult.bytes := by
  refine .bind (Estimator.estimate_balanced _ _ _ _) fun e => ?_
  dsimp only
  split
  · exact .pure (by rw [JoinResult.bytes, emptyResult, Nat.mul_zero, Nat.zero_mul])
  · refine .hold (.mapError (DeviceM.reserveItems_balanced _ _)) fun _ => ?_
    exact .map (j.grow_balanced flip table probe build _ _ _) fun f => rfl

/-! ## Preparation -/

variable [JoinKey K] {keying : Keying K}

/-- The join has been accepted and has built a table of `capacity` slots. -/
structure Prepared (j : HashJoin) (keying : Keying K) (left right : KeyColumns K) (d : Device)
    (capacity : Nat) (table : Multimap K S) (d' : Device) : Prop where
  accepted : Accepted S left right
  rows : ¬j.TriviallyEmpty left right
  slots : Multimap.capacityFor (j.built left right).len j.occupancy = .ok capacity
  build : ∃ d₁,
    Multimap.allocate capacity keying d = .ok (.free capacity keying : Multimap K S) d₁ ∧
    (Multimap.free capacity keying).buildOrFail j.block (j.built left right).keys d₁ = .ok table d'

/-- What a join does to sides that it accepts. -/
theorem prepare_of_accepted {α : Type} (early : α) (body : Multimap K S → DeviceM JoinError α)
    (h : Accepted S left right) (d : Device) :
    j.prepare keying left right early body d =
      (if j.TriviallyEmpty left right then pure early
      else do
        let capacity ← DeviceM.ofExcept
          (Multimap.capacityFor (j.built left right).len j.occupancy)
        Multimap.withTable capacity keying fun table => do
          body (← table.buildOrFail j.block (j.built left right).keys) :
        DeviceM JoinError α) d :=
  (DeviceM.bind_of_ok (DeviceM.ofExcept_of_ok h.valid d)).trans
    ((DeviceM.bind_of_ok (DeviceM.ofExcept_of_ok h.leftRows d)).trans
      (DeviceM.bind_of_ok (DeviceM.ofExcept_of_ok h.rightRows d)))

theorem prepare_of_prepared {capacity : Nat} {table : Multimap K S} {d d' : Device}
    (h : Prepared j keying left right d capacity table d') {α : Type} (early : α)
    (body : Multimap K S → DeviceM JoinError α) :
    j.prepare keying left right early body d =
      DeviceM.withBytes (capacity * Multimap.slotBytes K S) (body table) d' := by
  obtain ⟨d₁, hallocate, hbuild⟩ := h.build
  rw [prepare_of_accepted early body h.accepted, if_neg h.rows]
  refine (DeviceM.bind_of_ok (DeviceM.ofExcept_of_ok h.slots d)).trans ?_
  refine (DeviceM.bind_of_ok hallocate).trans ?_
  exact DeviceM.withBytes_congr (DeviceM.bind_of_ok hbuild)

/-- The join fails with the device left as it was, whatever follows on its preparation. -/
def Fails (S : Type) [Word S] (j : HashJoin) (keying : Keying K) (left right : KeyColumns K)
    (d : Device) : Prop :=
  ∃ e d', d.Became d' 0 ∧ ∀ {α : Type} (early : α) (body : Multimap K S → DeviceM JoinError α),
    j.prepare keying left right early body d = .error e d'

theorem prepare_of_trivial {α : Type} (early : α) (body : Multimap K S → DeviceM JoinError α)
    (h : Accepted S left right) (htrivial : j.TriviallyEmpty left right) (d : Device) :
    j.prepare keying left right early body d = .ok early d := by
  rw [prepare_of_accepted early body h, if_pos htrivial]
  rfl

theorem accepted_cases (h : Accepted S left right) (hrows : ¬j.TriviallyEmpty left right)
    (keying : Keying K) (d : Device) :
    Fails S j keying left right d ∨
      ∃ capacity table d', Prepared (S := S) j keying left right d capacity table d' := by
  cases hslots : Multimap.capacityFor (j.built left right).len j.occupancy with
  | error e =>
    refine Or.inl ⟨e, d, .refl d, fun early body => ?_⟩
    rw [prepare_of_accepted early body h, if_neg hrows]
    exact DeviceM.bind_of_error (DeviceM.ofExcept_of_error hslots d)
  | ok capacity =>
    have hbalanced := Multimap.allocate_balanced (S := S) capacity keying
    cases hallocate : Multimap.allocate (S := S) capacity keying d with
    | error e d₁ =>
      refine Or.inl ⟨e, d₁, hbalanced.error hallocate, fun early body => ?_⟩
      rw [prepare_of_accepted early body h, if_neg hrows]
      exact (DeviceM.bind_of_ok (DeviceM.ofExcept_of_ok hslots d)).trans
        (DeviceM.bind_of_error hallocate)
    | ok m d₁ =>
      obtain ⟨-, rfl⟩ := Multimap.allocate_ok hallocate
      have hkeys := Multimap.buildOrFail_balanced (.free capacity keying : Multimap K S) j.block
        (j.built left right).keys
      cases hbuild : (Multimap.free capacity keying : Multimap K S).buildOrFail j.block
          (j.built left right).keys d₁ with
      | error e d₂ =>
        refine Or.inl ⟨e, _, ((hbalanced.ok hallocate).trans (hkeys.error hbuild)).release,
          fun early body => ?_⟩
        rw [prepare_of_accepted early body h, if_neg hrows]
        exact (DeviceM.bind_of_ok (DeviceM.ofExcept_of_ok hslots d)).trans
          ((DeviceM.bind_of_ok hallocate).trans
            (DeviceM.withBytes_of_error (DeviceM.bind_of_error hbuild)))
      | ok table d₂ =>
        exact Or.inr ⟨capacity, table, d₂, h, hrows, hslots, d₁, hallocate, hbuild⟩

/-- A join fails with the device left as it was, ends early, or goes on with the table that it has
built. -/
theorem prepare_cases (S : Type) [Word S] (j : HashJoin) (keying : Keying K)
    (left right : KeyColumns K) (d : Device) :
    Fails S j keying left right d ∨ (Accepted S left right ∧ j.TriviallyEmpty left right) ∨
      ∃ capacity table d', Prepared (S := S) j keying left right d capacity table d' := by
  cases hvalid : left.validate right with
  | error e =>
    exact Or.inl ⟨e, d, .refl d, fun _ _ =>
      DeviceM.bind_of_error (DeviceM.ofExcept_of_error hvalid d)⟩
  | ok =>
    cases hleft : checkRows S left with
    | error e =>
      exact Or.inl ⟨e, d, .refl d, fun _ _ =>
        (DeviceM.bind_of_ok (DeviceM.ofExcept_of_ok hvalid d)).trans
          (DeviceM.bind_of_error (DeviceM.ofExcept_of_error hleft d))⟩
    | ok =>
      cases hright : checkRows S right with
      | error e =>
        exact Or.inl ⟨e, d, .refl d, fun _ _ =>
          (DeviceM.bind_of_ok (DeviceM.ofExcept_of_ok hvalid d)).trans
            ((DeviceM.bind_of_ok (DeviceM.ofExcept_of_ok hleft d)).trans
              (DeviceM.bind_of_error (DeviceM.ofExcept_of_error hright d)))⟩
      | ok =>
        by_cases hrows : j.TriviallyEmpty left right
        · exact Or.inr (Or.inl ⟨⟨hvalid, hleft, hright⟩, hrows⟩)
        · exact (accepted_cases ⟨hvalid, hleft, hright⟩ hrows keying d).imp_right Or.inr

/-! ## What preparation gives -/

theorem capacityFor_ok {rows percent capacity : Nat}
    (h : Multimap.capacityFor rows percent = .ok capacity) :
    rows + UInt32.size ≤ UInt64.size := by
  unfold Multimap.capacityFor at h
  split at h
  · cases h
  · split at h
    · cases h
    · rename_i hrows
      have hmax : Device.maxBytes = 18446744073709551615 := rfl
      have hsize : UInt32.size = 4294967296 := rfl
      have hsize64 : UInt64.size = 18446744073709551616 := rfl
      omega

namespace Prepared

variable {capacity : Nat} {table : Multimap K S} {d d' : Device}

theorem became (h : Prepared j keying left right d capacity table d') :
    d.Became d' (capacity * Multimap.slotBytes K S) := by
  obtain ⟨d₁, hallocate, hbuild⟩ := h.build
  exact ((Multimap.allocate_balanced _ _).ok hallocate).trans
    ((Multimap.buildOrFail_balanced _ _ _).ok hbuild)

/-- The table holds all rows of the side that it is built over. -/
theorem stores (h : Prepared j keying left right d capacity table d') (hd : d.RunsAll) :
    ∃ rows, d.Orders (j.built left right).len rows ∧
      table.Stores (j.built left right).keys rows ∧ table.keying = keying ∧
      table.capacity = capacity := by
  obtain ⟨d₁, hallocate, hbuild⟩ := h.build
  have hb := (Multimap.allocate_balanced _ _).ok hallocate
  obtain ⟨rows, horder, hstores, hcapacity, hkeying⟩ := Multimap.buildOrFail_ok (hd.became hb)
    (Multimap.holds_free (Multimap.allocate_ok hallocate).1 keying) (capacityFor_ok h.slots) hbuild
  exact ⟨rows, horder.of_became hb, hstores, hkeying, hcapacity.trans Array.size_replicate⟩

theorem probeable (h : Prepared j keying left right d capacity table d') (hd : d.RunsAll)
    (hsize : (j.probed left right).len + UInt32.size ≤ UInt64.size) :
    table.Probeable (j.probed left right) (j.built left right) where
  compatible := h.accepted.compatible j
  rowsBelow := by
    obtain ⟨rows, -, hstores, -, -⟩ := h.stores hd
    exact hstores.rowsBelow
  size := hsize
  probeRows := h.accepted.probed_lt j
  buildRows := h.accepted.built_lt j

/-- Whatever the order of the build and of the probe, the rows that probing the table finds are the
join of the two sides. -/
theorem emissions_perm (h : Prepared j keying left right d capacity table d') (hd : d.RunsAll)
    (hlaw : keying.Lawful) {taken : List Nat}
    (htaken : taken.Perm (List.range (j.probed left right).len)) :
    ((j.prober.emissions table (j.probed left right) (j.built left right) taken).map
      Prober.rowOf).Perm
      (NestedLoop.join j.joinType keying.equal (j.probed left right) (j.built left right)
        (j.probed left right).len) := by
  obtain ⟨rows, horder, hstores, rfl, -⟩ := h.stores hd
  exact Prober.map_rowOf_emissions_perm (h.accepted.compatible j) hstores hlaw
    (Nat.le_of_lt (h.accepted.built_lt j)) horder.perm (Nat.le_refl _) htaken

/-- On one worker they come in the order of the nested loops. -/
theorem emissions_eq (h : Prepared j keying left right d capacity table d') (hd : d.OneWorker)
    (hlaw : keying.Lawful) :
    (j.prober.emissions table (j.probed left right) (j.built left right)
      (List.range (j.probed left right).len)).map Prober.rowOf =
      NestedLoop.join j.joinType keying.equal (j.probed left right) (j.built left right)
        (j.probed left right).len := by
  obtain ⟨rows, horder, hstores, rfl, -⟩ := h.stores hd.runsAll
  rw [horder.ascending hd] at hstores
  exact Prober.map_rowOf_emissions_eq (h.accepted.compatible j) hstores hlaw
    (Nat.le_of_lt (h.accepted.built_lt j))

end Prepared

/-! ## The whole join -/

theorem execute_of_trivial (h : Accepted S left right) (htrivial : j.TriviallyEmpty left right)
    (d : Device) : j.execute keying left right d =
      .ok (emptyResult ⟨.empty, j.flips left right, 0, none, 0, 0⟩ : JoinResult S) d :=
  prepare_of_trivial _ _ h htrivial d

theorem execute_of_prepared {capacity : Nat} {table : Multimap K S} {d d' : Device}
    (h : Prepared j keying left right d capacity table d') :
    j.execute keying left right d =
      DeviceM.withBytes (capacity * Multimap.slotBytes K S)
        (j.probeTable (j.flips left right) table (j.probed left right) (j.built left right)) d' :=
  prepare_of_prepared h _ _

theorem execute_balanced (j : HashJoin) (keying : Keying K) (left right : KeyColumns K) :
    DeviceM.Balanced (j.execute (S := S) keying left right) JoinResult.bytes where
  ok := by
    intro d r d' h
    rcases prepare_cases S j keying left right d with
      ⟨e, d₁, hb, hfails⟩ | ⟨haccepted, htrivial⟩ | ⟨capacity, table, d₁, hprepared⟩
    · cases (hfails _ _).symm.trans h
    · rw [execute_of_trivial haccepted htrivial] at h
      cases h
      rw [JoinResult.bytes, emptyResult, Nat.mul_zero, Nat.zero_mul]
      exact .refl d
    · rw [execute_of_prepared hprepared] at h
      obtain ⟨d₂, hprobe, rfl⟩ := DeviceM.withBytes_ok h
      exact (hprepared.became.trans ((j.probeTable_balanced _ table _ _).ok hprobe)).release
  error := by
    intro d e d' h
    rcases prepare_cases S j keying left right d with
      ⟨e, d₁, hb, hfails⟩ | ⟨haccepted, htrivial⟩ | ⟨capacity, table, d₁, hprepared⟩
    · cases (hfails _ _).symm.trans h
      exact hb
    · rw [execute_of_trivial haccepted htrivial] at h
      cases h
    · rw [execute_of_prepared hprepared] at h
      obtain ⟨d₂, hprobe, rfl⟩ := DeviceM.withBytes_error h
      exact (hprepared.became.trans ((j.probeTable_balanced _ table _ _).error hprobe)).release

end HashJoin
end GridOps
