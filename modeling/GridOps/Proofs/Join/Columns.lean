import GridOps.Join.Columns
import Mathlib.Data.List.Zip

/-!
Sides that passed validation.

Their columns have the lengths of their keys and the types of their counterparts, so comparing two
rows reads every column within its bounds: it never faults, and says whether all values agree
(`secondarySame_eq`).  Other sides are refused as invalid arguments (`validate_cases`).
-/

namespace GridOps
namespace KeyColumns

variable {K : Type}

/-- The sides have as many columns, of the same types, and each column is as long as its side. -/
structure Compatible (left right : KeyColumns K) : Prop where
  leftLengths : ∀ c ∈ left.secondary, c.values.size = left.len
  rightLengths : ∀ c ∈ right.secondary, c.values.size = right.len
  counts : left.secondary.length = right.secondary.length
  types : ∀ c ∈ left.secondary.zip right.secondary, c.1.type = c.2.type

theorem checkSide_ok {side : KeyColumns K} (h : side.checkSide = .ok ()) :
    ∀ c ∈ side.secondary, c.values.size = side.len := by
  unfold checkSide at h
  split at h
  · cases h
  · split at h
    · cases h
    · rename_i hfind
      intro c hc
      have hlen := List.find?_eq_none.mp hfind c hc
      simpa using hlen

theorem validate_ok {left right : KeyColumns K} (h : left.validate right = .ok ()) :
    left.Compatible right := by
  unfold validate at h
  cases hl : left.checkSide with
  | error e =>
    rw [hl] at h
    cases h
  | ok _ =>
    cases hr : right.checkSide with
    | error e =>
      rw [hl, hr] at h
      cases h
    | ok _ =>
      rw [hl, hr] at h
      change (if _ then _ else _) = _ at h
      split at h
      · cases h
      · rename_i hcounts
        split at h
        · cases h
        · rename_i hfind
          refine ⟨checkSide_ok hl, checkSide_ok hr, by simpa using hcounts, fun c hc => ?_⟩
          have htypes := List.find?_eq_none.mp hfind c hc
          simpa using htypes

theorem Compatible.symm {left right : KeyColumns K} (h : left.Compatible right) :
    right.Compatible left where
  leftLengths := h.rightLengths
  rightLengths := h.leftLengths
  counts := h.counts.symm
  types := by
    intro c hc
    rw [← List.zip_swap, List.mem_map] at hc
    obtain ⟨c', hc', rfl⟩ := hc
    exact (h.types c' hc').symm

/-- A side with too many columns, or with a column that is not as long as its keys. -/
def IllFormed (side : KeyColumns K) : Prop :=
  maxColumns < side.secondary.length + 1 ∨ ∃ c ∈ side.secondary, c.values.size ≠ side.len

instance (side : KeyColumns K) : Decidable side.IllFormed := inferInstanceAs (Decidable (_ ∨ _))

/-- Sides that no join accepts. -/
def Mismatched (left right : KeyColumns K) : Prop :=
  left.IllFormed ∨ right.IllFormed ∨ left.secondary.length ≠ right.secondary.length ∨
    ∃ c ∈ left.secondary.zip right.secondary, c.1.type ≠ c.2.type

instance (left right : KeyColumns K) : Decidable (left.Mismatched right) :=
  inferInstanceAs (Decidable (_ ∨ _))

theorem checkSide_cases (side : KeyColumns K) :
    (side.IllFormed ∧ ∃ e, side.checkSide = .error e ∧ e.kind = .invalidArgument) ∨
      (¬side.IllFormed ∧ side.checkSide = .ok ()) := by
  unfold IllFormed checkSide
  by_cases hmany : maxColumns < side.secondary.length + 1
  · exact Or.inl ⟨Or.inl hmany, _, if_pos hmany, rfl⟩
  · rw [if_neg hmany]
    cases hfind : side.secondary.find? fun c => c.values.size ≠ side.len with
    | some c =>
      have hc := List.find?_some hfind
      have hmem := List.mem_of_find?_eq_some hfind
      exact Or.inl ⟨Or.inr ⟨c, hmem, by simpa using hc⟩, _, rfl, rfl⟩
    | none =>
      refine Or.inr ⟨?_, rfl⟩
      rintro (h | ⟨c, hc, hlen⟩)
      · exact hmany h
      · exact List.find?_eq_none.mp hfind c hc (by simpa using hlen)

/-- Validation refuses mismatched sides as invalid arguments, and no others. -/
theorem validate_cases (left right : KeyColumns K) :
    (left.Mismatched right ∧ ∃ e, left.validate right = .error e ∧ e.kind = .invalidArgument) ∨
      (¬left.Mismatched right ∧ left.validate right = .ok ()) := by
  unfold Mismatched validate
  rcases left.checkSide_cases with ⟨hleft, e, he, hkind⟩ | ⟨hleft, he⟩
  · exact Or.inl ⟨Or.inl hleft, e, by rw [he]; rfl, hkind⟩
  rcases right.checkSide_cases with ⟨hright, e', he', hkind⟩ | ⟨hright, he'⟩
  · exact Or.inl ⟨Or.inr (Or.inl hright), e', by rw [he, he']; rfl, hkind⟩
  rw [he, he']
  by_cases hcounts : left.secondary.length = right.secondary.length
  · cases hfind : (left.secondary.zip right.secondary).find? fun c => c.1.type ≠ c.2.type with
    | some c =>
      have hc := List.find?_some hfind
      have hmem := List.mem_of_find?_eq_some hfind
      refine Or.inl ⟨Or.inr (Or.inr (Or.inr ⟨c, hmem, by simpa using hc⟩)),
        .columnTypes c.1.type.name c.2.type.name, if_neg (not_not.mpr hcounts), rfl⟩
    | none =>
      refine Or.inr ⟨?_, if_neg (not_not.mpr hcounts)⟩
      rintro (h | h | h | ⟨c, hc, htypes⟩)
      · exact hleft h
      · exact hright h
      · exact h hcounts
      · exact List.find?_eq_none.mp hfind c hc (by simpa using htypes)
  · exact Or.inl ⟨Or.inr (Or.inr (Or.inl hcounts)), _, if_pos hcounts, rfl⟩

/-- Whether row `i` of `left` and row `j` of `right` hold the same values in all pairs of secondary
columns. -/
def sameSecondary (left right : KeyColumns K) (i j : Nat) : Bool :=
  (left.secondary.zip right.secondary).all fun c => c.1.values[i]? == c.2.values[j]?

theorem allSameAt_eq {ls rs : List Column} {i j n m : Nat} (hi : i < n) (hj : j < m)
    (hl : ∀ c ∈ ls, c.values.size = n) (hr : ∀ c ∈ rs, c.values.size = m)
    (ht : ∀ c ∈ ls.zip rs, c.1.type = c.2.type) :
    Column.allSameAt ls i rs j =
      .ok ((ls.zip rs).all fun c => c.1.values[i]? == c.2.values[j]?) := by
  induction ls generalizing rs with
  | nil => rfl
  | cons l ls ih =>
    cases rs with
    | nil => rfl
    | cons r rs =>
      have hls := hl l List.mem_cons_self
      have hrs := hr r List.mem_cons_self
      have htype : l.type = r.type := ht (l, r) List.mem_cons_self
      have hrest := ih (fun c hc => hl c (List.mem_cons_of_mem _ hc))
        (fun c hc => hr c (List.mem_cons_of_mem _ hc))
        (fun c hc => ht c (List.mem_cons_of_mem _ hc))
      have hli : l.values[i]? = some l.values[i] := Array.getElem?_eq_getElem (by omega)
      have hrj : r.values[j]? = some r.values[j] := Array.getElem?_eq_getElem (by omega)
      rw [Column.allSameAt, Column.sameAt, if_neg (fun h => h htype), hli, hrj, List.zip_cons_cons,
        List.all_cons, hrest, hli, hrj]
      cases hv : l.values[i] == r.values[j] with
      | false => simp [hv]
      | true => simp [hv]

theorem secondarySame_eq {left right : KeyColumns K} (h : left.Compatible right) {i j : Nat}
    (hi : i < left.len) (hj : j < right.len) :
    left.secondarySame i right j = .ok (left.sameSecondary right i j) :=
  allSameAt_eq hi hj h.leftLengths h.rightLengths h.types

theorem sameSecondary_comm (left right : KeyColumns K) (i j : Nat) :
    left.sameSecondary right i j = right.sameSecondary left j i := by
  unfold sameSecondary
  rw [← List.zip_swap left.secondary right.secondary, List.all_map]
  congr 1
  funext c
  exact Bool.beq_comm ..

end KeyColumns
end GridOps
