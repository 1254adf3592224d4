import GridOps.Join.NestedLoop
import GridOps.Proofs.Join.Columns
import Mathlib.Data.List.Nodup

/-!
The nested-loop join holds what a join has to hold.

`IsJoin` says of a list of result rows, without a loop, that it is the join of two sides: how often
each pair of rows occurs, and each left row without a right one.  It determines the list up to its
order.  The nested loops give such a list (`join_isJoin`), also when the sides of an inner join are
exchanged and the pairs turned round again (`map_oriented_join_perm`).
-/

namespace GridOps
namespace NestedLoop

variable {K : Type} {joinType : JoinType} {equal : K → K → Bool} {left right : KeyColumns K}

/-- Row `i` of `left` and row `j` of `right` have equal primary keys and equal secondary keys. -/
def RowsAgree (equal : K → K → Bool) (left right : KeyColumns K) (i j : Nat) : Prop :=
  (∃ a b, left.keys[i]? = some a ∧ right.keys[j]? = some b ∧ equal a b = true) ∧
    ∀ c ∈ left.secondary.zip right.secondary, c.1.values[i]? = c.2.values[j]?

/-- The rows are the join of the sides: every pair of agreeing rows once, in a left join every left
row without a partner once with none, and nothing else. -/
structure IsJoin (joinType : JoinType) (equal : K → K → Bool) (left right : KeyColumns K)
    (rows : List (Nat × Option Nat)) : Prop where
  matched : ∀ i j, RowsAgree equal left right i j → rows.count (i, some j) = 1
  unmatched : joinType = .left → ∀ i < left.len, (∀ j, ¬RowsAgree equal left right i j) →
    rows.count (i, none) = 1
  only : ∀ row ∈ rows,
    (∃ i j, row = (i, some j) ∧ RowsAgree equal left right i j) ∨
    (∃ i, row = (i, none) ∧ joinType = .left ∧ i < left.len ∧
      ∀ j, ¬RowsAgree equal left right i j)

theorem IsJoin.of_perm {rows rows' : List (Nat × Option Nat)}
    (h : IsJoin joinType equal left right rows) (hp : rows'.Perm rows) :
    IsJoin joinType equal left right rows' where
  matched := by
    intro i j hagree
    rw [hp.count_eq]
    exact h.matched i j hagree
  unmatched := by
    intro hleft i hi hnone
    rw [hp.count_eq]
    exact h.unmatched hleft i hi hnone
  only := fun row hrow => h.only row (hp.mem_iff.mp hrow)

/-! ## Matching rows -/

theorem lt_of_rowsMatch {i j : Nat} (h : rowsMatch equal left right i j = true) :
    i < left.len ∧ j < right.len := by
  unfold rowsMatch at h
  split at h
  · rename_i a b ha hb
    exact ⟨(Array.getElem?_eq_some_iff.mp ha).1, (Array.getElem?_eq_some_iff.mp hb).1⟩
  · cases h

theorem rowsMatch_eq (hc : left.Compatible right) (i j : Nat) :
    rowsMatch equal left right i j =
      match left.keys[i]?, right.keys[j]? with
      | some a, some b => equal b a && left.sameSecondary right i j
      | _, _ => false := by
  unfold rowsMatch
  cases ha : left.keys[i]? with
  | none => rfl
  | some a =>
    cases hb : right.keys[j]? with
    | none => rfl
    | some b =>
      have hi : i < left.len := (Array.getElem?_eq_some_iff.mp ha).1
      have hj : j < right.len := (Array.getElem?_eq_some_iff.mp hb).1
      dsimp only
      rw [KeyColumns.secondarySame_eq hc hi hj]
      cases left.sameSecondary right i j <;> rfl

theorem rowsMatch_iff (hc : left.Compatible right) (hsym : ∀ a b, equal a b = equal b a)
    (i j : Nat) : rowsMatch equal left right i j = true ↔ RowsAgree equal left right i j := by
  rw [rowsMatch_eq hc]
  unfold RowsAgree KeyColumns.sameSecondary
  cases left.keys[i]? with
  | none => simp
  | some a =>
    cases right.keys[j]? with
    | none => simp
    | some b => simp [hsym a b]

theorem rowsMatch_comm (hc : left.Compatible right) (hsym : ∀ a b, equal a b = equal b a)
    (i j : Nat) : rowsMatch equal right left j i = rowsMatch equal left right i j := by
  rw [rowsMatch_eq hc, rowsMatch_eq hc.symm, KeyColumns.sameSecondary_comm right left]
  cases left.keys[i]? with
  | none => cases right.keys[j]? <;> rfl
  | some a =>
    cases right.keys[j]? with
    | none => rfl
    | some b => simp [hsym a b]

theorem mem_matching {i j : Nat} :
    j ∈ matching equal left right i ↔ rowsMatch equal left right i j = true := by
  unfold matching
  rw [List.mem_filter, List.mem_range]
  exact ⟨fun h => h.2, fun h => ⟨(lt_of_rowsMatch h).2, h⟩⟩

theorem matching_eq_nil_iff {i : Nat} :
    matching equal left right i = [] ↔ ∀ j, rowsMatch equal left right i j = false := by
  rw [List.eq_nil_iff_forall_not_mem]
  simp only [mem_matching, Bool.not_eq_true]

/-! ## Result rows -/

/-- The result rows of probe row `i` if its matching rows are `found`. -/
def pairUp (joinType : JoinType) (i : Nat) (found : List Nat) : List (Nat × Option Nat) :=
  match joinType, found with
  | .left, [] => [(i, none)]
  | _, found => found.map fun j => (i, some j)

theorem resultRows_eq_pairUp (i : Nat) :
    resultRows joinType equal left right i = pairUp joinType i (matching equal left right i) := rfl

theorem pairUp_perm {i : Nat} {found found' : List Nat} (h : found.Perm found') :
    (pairUp joinType i found).Perm (pairUp joinType i found') := by
  cases found with
  | nil => rw [h.nil_eq]
  | cons j rest =>
    cases found' with
    | nil => cases h.eq_nil
    | cons j' rest' =>
      have hmap := h.map fun j => (i, some j)
      cases joinType <;> exact hmap

theorem resultRows_cons {i j : Nat} {rest : List Nat}
    (h : matching equal left right i = j :: rest) :
    resultRows joinType equal left right i = (j :: rest).map fun j => (i, some j) := by
  unfold resultRows
  rw [h]
  cases joinType <;> rfl

theorem resultRows_nil {i : Nat} (h : matching equal left right i = []) :
    resultRows joinType equal left right i = if joinType = .left then [(i, none)] else [] := by
  unfold resultRows
  rw [h]
  cases joinType <;> rfl

theorem mem_resultRows {i : Nat} {row : Nat × Option Nat} :
    row ∈ resultRows joinType equal left right i ↔
      (∃ j, row = (i, some j) ∧ rowsMatch equal left right i j = true) ∨
      (row = (i, none) ∧ joinType = .left ∧ ∀ j, rowsMatch equal left right i j = false) := by
  cases hm : matching equal left right i with
  | nil =>
    have hnone := matching_eq_nil_iff.mp hm
    rw [resultRows_nil hm]
    split
    · rename_i hleft
      simp [hnone, hleft]
    · rename_i hleft
      simp [hnone, hleft]
  | cons j rest =>
    rw [resultRows_cons hm, ← hm, List.mem_map]
    have hmatch := mem_matching.mp (hm ▸ List.mem_cons_self : j ∈ matching equal left right i)
    constructor
    · rintro ⟨j', hj', rfl⟩
      exact Or.inl ⟨j', rfl, mem_matching.mp hj'⟩
    · rintro (⟨j', rfl, hj'⟩ | ⟨-, -, hnone⟩)
      · exact ⟨j', mem_matching.mpr hj', rfl⟩
      · rw [hnone j] at hmatch
        cases hmatch

theorem fst_of_mem_resultRows {i : Nat} {row : Nat × Option Nat}
    (h : row ∈ resultRows joinType equal left right i) : row.1 = i := by
  rcases mem_resultRows.mp h with ⟨j, rfl, -⟩ | ⟨rfl, -⟩ <;> rfl

theorem nodup_resultRows (i : Nat) : (resultRows joinType equal left right i).Nodup := by
  cases hm : matching equal left right i with
  | nil =>
    rw [resultRows_nil hm]
    split <;> simp
  | cons j rest =>
    rw [resultRows_cons hm, ← hm]
    refine List.Nodup.map (fun a b hab => ?_) (List.nodup_range.filter _)
    exact Option.some.inj (Prod.mk.inj hab).2

theorem mem_join {len : Nat} {row : Nat × Option Nat} :
    row ∈ join joinType equal left right len ↔
      row.1 < len ∧ row ∈ resultRows joinType equal left right row.1 := by
  unfold join
  rw [List.mem_flatMap]
  constructor
  · rintro ⟨i, hi, hrow⟩
    rw [fst_of_mem_resultRows hrow]
    exact ⟨List.mem_range.mp hi, hrow⟩
  · rintro ⟨hi, hrow⟩
    exact ⟨row.1, List.mem_range.mpr hi, hrow⟩

theorem nodup_join (len : Nat) : (join joinType equal left right len).Nodup := by
  unfold join
  rw [List.nodup_flatMap]
  refine ⟨fun i _ => nodup_resultRows i, List.nodup_range.imp fun {i j} hne row hi hj => ?_⟩
  exact hne ((fst_of_mem_resultRows hi).symm.trans (fst_of_mem_resultRows hj))

/-- The nested loops give the join. -/
theorem join_isJoin (hc : left.Compatible right) (hsym : ∀ a b, equal a b = equal b a) :
    IsJoin joinType equal left right (join joinType equal left right left.len) where
  matched := by
    intro i j hagree
    have hmatch := (rowsMatch_iff hc hsym i j).mpr hagree
    refine List.count_eq_one_of_mem (nodup_join _) (mem_join.mpr ⟨(lt_of_rowsMatch hmatch).1, ?_⟩)
    exact mem_resultRows.mpr (Or.inl ⟨j, rfl, hmatch⟩)
  unmatched := by
    intro hleft i hi hnone
    refine List.count_eq_one_of_mem (nodup_join _) (mem_join.mpr ⟨hi, ?_⟩)
    refine mem_resultRows.mpr (Or.inr ⟨rfl, hleft, fun j => ?_⟩)
    rw [Bool.eq_false_iff, Ne, rowsMatch_iff hc hsym]
    exact hnone j
  only := by
    intro row hrow
    obtain ⟨hi, hrow⟩ := mem_join.mp hrow
    rcases mem_resultRows.mp hrow with ⟨j, hrow, hmatch⟩ | ⟨hrow, hleft, hnone⟩
    · exact Or.inl ⟨row.1, j, hrow, (rowsMatch_iff hc hsym _ _).mp hmatch⟩
    · refine Or.inr ⟨row.1, hrow, hleft, hi, fun j hagree => ?_⟩
      rw [← rowsMatch_iff hc hsym, hnone j] at hagree
      cases hagree

/-! ## Exchanged sides -/

/-- A result row of exchanged sides, turned round. -/
def oriented (flip : Bool) (row : Nat × Option Nat) : Nat × Option Nat :=
  match flip, row with
  | true, (j, some i) => (i, some j)
  | _, row => row

theorem oriented_false (row : Nat × Option Nat) : oriented false row = row := rfl

theorem map_oriented_false (rows : List (Nat × Option Nat)) : rows.map (oriented false) = rows := by
  rw [List.map_congr_left fun row _ => oriented_false row, List.map_id']

theorem mem_join_inner {len : Nat} {row : Nat × Option Nat}
    (h : row ∈ join .inner equal left right len) : ∃ i j, row = (i, some j) := by
  obtain ⟨-, hrow⟩ := mem_join.mp h
  rcases mem_resultRows.mp hrow with ⟨j, hrow, -⟩ | ⟨-, hleft, -⟩
  · exact ⟨row.1, j, hrow⟩
  · cases hleft

/-- An inner join may loop over either side. -/
theorem map_oriented_join_perm (hc : left.Compatible right)
    (hsym : ∀ a b, equal a b = equal b a) :
    ((join .inner equal right left right.len).map (oriented true)).Perm
      (join .inner equal left right left.len) := by
  have hnodup : ((join .inner equal right left right.len).map (oriented true)).Nodup := by
    refine (List.nodup_map_iff_inj_on (nodup_join _)).mpr fun row hrow row' hrow' heq => ?_
    obtain ⟨j, i, rfl⟩ := mem_join_inner hrow
    obtain ⟨j', i', rfl⟩ := mem_join_inner hrow'
    simp only [oriented, Prod.mk.injEq, Option.some.injEq] at heq
    rw [heq.1, heq.2]
  -- Neither list repeats a row, so it is enough that they have the same rows.
  refine (List.perm_ext_iff_of_nodup hnodup (nodup_join _)).mpr fun row => ?_
  rw [List.mem_map]
  constructor
  · rintro ⟨row', hrow', rfl⟩
    obtain ⟨j, i, rfl⟩ := mem_join_inner hrow'
    rcases mem_resultRows.mp (mem_join.mp hrow').2 with ⟨i', heq, hmatch⟩ | ⟨-, hleft, -⟩
    · obtain rfl : i = i' := Option.some.inj (Prod.mk.inj heq).2
      rw [rowsMatch_comm hc hsym] at hmatch
      exact mem_join.mpr ⟨(lt_of_rowsMatch hmatch).1, mem_resultRows.mpr (Or.inl ⟨j, rfl, hmatch⟩)⟩
    · cases hleft
  · intro hrow
    obtain ⟨i, j, rfl⟩ := mem_join_inner hrow
    rcases mem_resultRows.mp (mem_join.mp hrow).2 with ⟨j', heq, hmatch⟩ | ⟨-, hleft, -⟩
    · obtain rfl : j = j' := Option.some.inj (Prod.mk.inj heq).2
      have hmatch' := (rowsMatch_comm hc hsym i j).trans hmatch
      exact ⟨(j, some i), mem_join.mpr ⟨(lt_of_rowsMatch hmatch').1,
        mem_resultRows.mpr (Or.inl ⟨i, rfl, hmatch'⟩)⟩, rfl⟩
    · cases hleft

end NestedLoop
end GridOps
