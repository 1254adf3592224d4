import GridOps.Proofs.Join.NestedLoop
import Mathlib.Algebra.BigOperators.Group.List.Basic
import Mathlib.Algebra.Ring.Nat

/-!
Joins on one key column.

Without secondary keys a row matches as often as its key occurs on the other side, so the size of
an inner join is a sum of numbers of occurrences (`length_join_keys`).
-/

namespace GridOps

variable {K : Type}

/-- A side with a primary key and no other. -/
def KeyColumns.ofKeys (keys : Array K) : KeyColumns K := ⟨keys, []⟩

theorem KeyColumns.ofKeys_not_mismatched (left right : Array K) :
    ¬(ofKeys left).Mismatched (ofKeys right) := by
  simp [Mismatched, IllFormed, ofKeys, maxColumns]

theorem KeyColumns.secondarySame_ofKeys (left right : Array K) (i j : Nat) :
    ((ofKeys left).secondarySame i (ofKeys right) j).toOption = some true := rfl

namespace NestedLoop

variable [JoinKey K] {probe build : Array K}

theorem rowsMatch_ofKeys (i j : Nat) :
    rowsMatch Keying.sameKey (.ofKeys probe) (.ofKeys build) i j = true ↔
      ∃ key, probe[i]? = some key ∧ build[j]? = some key := by
  unfold rowsMatch
  rw [KeyColumns.secondarySame_ofKeys]
  dsimp only [KeyColumns.ofKeys]
  cases probe[i]? with
  | none => simp
  | some a =>
    cases build[j]? with
    | none => simp
    | some b => simp [Keying.sameKey]

theorem length_matching_ofKeys {i : Nat} (hi : i < probe.size) :
    (matching Keying.sameKey (.ofKeys probe) (.ofKeys build) i).length =
      build.toList.count probe[i] := by
  have hplaces : (List.range build.size).map (build[·]?) = build.toList.map some :=
    List.ext_getElem (by simp) fun j _ hj => by simp
  have hmatch : ∀ j ∈ List.range build.size,
      (rowsMatch Keying.sameKey (.ofKeys probe) (.ofKeys build) i j = true ↔
        (build[j]? == some probe[i]) = true) := fun j _ => by
    rw [rowsMatch_ofKeys, Array.getElem?_eq_getElem hi, beq_iff_eq]
    constructor
    · rintro ⟨key, hkey, hj⟩
      rw [hj, hkey]
    · intro hj
      exact ⟨_, rfl, hj⟩
  calc (matching Keying.sameKey (.ofKeys probe) (.ofKeys build) i).length
      = (List.range build.size).countP fun j => build[j]? == some probe[i] := by
        rw [matching, ← List.countP_eq_length_filter]
        exact List.countP_congr hmatch
    _ = (build.toList.map some).countP (· == some probe[i]) := by
        rw [← hplaces, List.countP_map]
        rfl
    _ = build.toList.count probe[i] := by
        rw [List.countP_map, List.count_eq_countP]
        exact List.countP_congr fun key _ => by simp

/-- Each key of the probe side has a result row for each of its occurrences on the other side. -/
theorem length_join_ofKeys {len : Nat} (hlen : len ≤ probe.size) :
    (join .inner Keying.sameKey (.ofKeys probe) (.ofKeys build) len).length =
      ((probe.toList.take len).map fun key => build.toList.count key).sum := by
  rw [join, List.length_flatMap]
  congr 1
  refine List.ext_getElem (by simp [hlen]) fun i hi _ => ?_
  rw [List.length_map, List.length_range] at hi
  rw [List.getElem_map, List.getElem_range, List.getElem_map, List.getElem_take,
    Array.getElem_toList, ← length_matching_ofKeys (by omega)]
  exact List.length_map _

end NestedLoop
end GridOps
