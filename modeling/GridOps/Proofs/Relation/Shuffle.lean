import GridOps.Relation.Draws
import Mathlib.Data.List.Nodup
import Mathlib.Data.List.Perm.Basic
import Mathlib.Logic.Function.Basic

/-!
Random orders.

Whatever is drawn, shuffling and sorting by drawn tags rearrange what they are given
(`shuffle_perm`, `sortByTag_perm`).  Every arrangement is drawn, up to as many elements as there are
words (`exists_shuffle_eq`, `exists_sortByTag_eq`), so that a statement about all draws is one about
all arrangements.
-/

namespace GridOps
namespace Draws

variable {α : Type}

/-! ## Exchanging places -/

theorem swapIfInBounds_perm (xs : Array α) (i j : Nat) :
    (xs.swapIfInBounds i j).toList.Perm xs.toList := by
  rw [Array.swapIfInBounds_def]
  split
  · split
    · exact (Array.swap_perm _ _).toList
    · exact .refl _
  · exact .refl _

theorem shuffleFrom_perm (draws : Draws) (n : Nat) (xs : Array α) :
    (shuffleFrom draws n xs).toList.Perm xs.toList := by
  induction n generalizing xs with
  | zero => exact .refl _
  | succ n ih => exact (ih _).trans (swapIfInBounds_perm xs _ _)

theorem shuffle_perm (draws : Draws) (xs : Array α) :
    (draws.shuffle xs).toList.Perm xs.toList :=
  shuffleFrom_perm draws _ xs

theorem size_shuffle (draws : Draws) (xs : Array α) : (draws.shuffle xs).size = xs.size :=
  (shuffle_perm draws xs).length_eq

/-- Exchanging the places `n … 1` takes `n` draws. -/
theorem shuffleFrom_congr {draws draws' : Draws} {n : Nat} (h : ∀ i < n, draws i = draws' i)
    (xs : Array α) : shuffleFrom draws n xs = shuffleFrom draws' n xs := by
  induction n generalizing xs with
  | zero => rfl
  | succ n ih =>
    have hplace : draws.between 0 (n + 1) n = draws'.between 0 (n + 1) n := by
      unfold between
      rw [h n (Nat.lt_succ_self n)]
    rw [shuffleFrom, shuffleFrom, hplace]
    exact ih (fun i hi => h i (Nat.lt_succ_of_lt hi)) _

theorem between_ofNat {n j : Nat} (hj : j ≤ n) (hn : n < UInt64.size) {draws : Draws} {i : Nat}
    (h : draws i = UInt64.ofNat j) : draws.between 0 n i = j := by
  unfold between
  rw [h, UInt64.toNat_ofNat_of_lt' (by omega), Nat.mod_eq_of_lt (by omega)]
  omega

/-- Rearrangements that agree from place `n` on are rearrangements before it. -/
theorem take_perm_of_drop_eq {xs ys : List α} {n : Nat} (h : ys.Perm xs)
    (hdrop : ys.drop n = xs.drop n) : (ys.take n).Perm (xs.take n) := by
  rw [← List.take_append_drop n ys, ← List.take_append_drop n xs, hdrop] at h
  exact (List.perm_append_right_iff _).mp h

/-- Exchanging two places up to `n` moves nothing behind it. -/
theorem drop_swapIfInBounds (xs : Array α) {n i j : Nat} (hi : i < n) (hj : j < n) :
    (xs.swapIfInBounds i j).toList.drop n = xs.toList.drop n := by
  refine List.ext_getElem (by simp) fun k hk _ => ?_
  rw [List.getElem_drop, List.getElem_drop, Array.getElem_toList, Array.getElem_toList,
    Array.getElem_swapIfInBounds, dif_neg (by omega), dif_neg (by omega)]

/-- An arrangement that agrees with `xs` behind place `n` is drawn by exchanging the places up to
`n`. -/
theorem exists_shuffleFrom_eq {n : Nat} {xs ys : Array α} (hsize : xs.size ≤ UInt64.size)
    (hn : n = 0 ∨ n < xs.size) (h : ys.toList.Perm xs.toList)
    (hdrop : ys.toList.drop (n + 1) = xs.toList.drop (n + 1)) :
    ∃ draws : Draws, shuffleFrom draws n xs = ys := by
  induction n generalizing xs with
  | zero =>
    have hfirst : ys.toList.take 1 = xs.toList.take 1 := by
      have hperm := take_perm_of_drop_eq h hdrop
      cases hxs : xs.toList with
      | nil =>
        rw [hxs] at h
        rw [h.eq_nil]
      | cons x rest =>
        rw [hxs, List.take_succ_cons, List.take_zero] at hperm
        exact hperm.eq_singleton
    refine ⟨fun _ => 0, Array.ext' ?_⟩
    show xs.toList = ys.toList
    rw [← List.take_append_drop 1 xs.toList, ← List.take_append_drop 1 ys.toList, hfirst, hdrop]
  | succ n ih =>
    have hlt : n + 1 < xs.toList.length := hn.resolve_left (Nat.succ_ne_zero n)
    have hlt' : n + 1 < ys.toList.length := h.length_eq ▸ hlt
    -- The element for place `n + 1` stands there or before it.
    have hmem : ys.toList[n + 1] ∈ xs.toList.take (n + 1 + 1) :=
      (take_perm_of_drop_eq h hdrop).mem_iff.mp
        (List.mem_take_iff_getElem.mpr ⟨n + 1, by omega, rfl⟩)
    obtain ⟨j, hj, hplace⟩ := List.mem_take_iff_getElem.mp hmem
    have hjle : j ≤ n + 1 := by omega
    have hswap : ys.toList.drop (n + 1) = (xs.swapIfInBounds (n + 1) j).toList.drop (n + 1) := by
      have hlt'' : n + 1 < (xs.swapIfInBounds (n + 1) j).toList.length := by simpa using hlt
      rw [List.drop_eq_getElem_cons hlt', List.drop_eq_getElem_cons hlt'', hdrop,
        drop_swapIfInBounds xs (Nat.lt_succ_self _) (Nat.lt_succ_of_le hjle), ← hplace]
      rw [Array.getElem_toList, Array.getElem_toList, Array.getElem_swapIfInBounds,
        dif_pos ⟨rfl, (Nat.lt_min.mp hj).2⟩]
    have hperm := h.trans (swapIfInBounds_perm xs (n + 1) j).symm
    obtain ⟨draws, hdraws⟩ := ih (by rwa [Array.size_swapIfInBounds])
      (Or.inr (by simp at hlt ⊢; omega)) hperm hswap
    rw [Array.length_toList] at hlt
    refine ⟨Function.update draws n (UInt64.ofNat j), ?_⟩
    rw [shuffleFrom, between_ofNat hjle (by omega) (Function.update_self ..), ← hdraws]
    exact shuffleFrom_congr (fun i hi => Function.update_of_ne (Nat.ne_of_lt hi) _ _) _

/-- Every arrangement is drawn. -/
theorem exists_shuffle_eq {xs ys : Array α} (hsize : xs.size ≤ UInt64.size)
    (h : ys.toList.Perm xs.toList) : ∃ draws : Draws, draws.shuffle xs = ys := by
  have hlen : ys.toList.length = xs.toList.length := h.length_eq
  refine exists_shuffleFrom_eq hsize (by omega) h ?_
  rw [List.drop_eq_nil_of_le, List.drop_eq_nil_of_le]
  · rw [Array.length_toList]
    omega
  · rw [hlen, Array.length_toList]
    omega

/-! ## Tags -/

theorem map_snd_tagged (draws : Draws) (xs : List α) :
    (xs.zipIdx.map fun (x, i) => (draws i, x)).map (·.2) = xs := by
  rw [List.map_map]
  exact List.zipIdx_map_fst 0 xs

theorem sortByTag_perm (draws : Draws) (xs : List α) : (draws.sortByTag xs).Perm xs := by
  have hperm := (List.mergeSort_perm (xs.zipIdx.map fun (x, i) => (draws i, x))
    fun a b => decide (a.1 ≤ b.1)).map (·.2)
  rwa [map_snd_tagged] at hperm

/-- Elements whose tags ascend strictly are what every order of them is sorted to. -/
theorem mergeSort_eq_of_ascending {us ts : List (UInt64 × α)} (h : us.Perm ts)
    (hts : ts.Pairwise fun a b => a.1 < b.1) :
    (us.mergeSort fun a b => decide (a.1 ≤ b.1)) = ts := by
  have htrans : ∀ a b c : UInt64 × α, decide (a.1 ≤ b.1) = true → decide (b.1 ≤ c.1) = true →
      decide (a.1 ≤ c.1) = true := fun a b c hab hbc =>
    decide_eq_true (UInt64.le_trans (of_decide_eq_true hab) (of_decide_eq_true hbc))
  have htotal : ∀ a b : UInt64 × α, (decide (a.1 ≤ b.1) || decide (b.1 ≤ a.1)) = true :=
    fun a b => by simpa using UInt64.le_total a.1 b.1
  have hsorted := List.pairwise_mergeSort htrans htotal us
  have hperm := (List.mergeSort_perm us fun a b => decide (a.1 ≤ b.1)).trans h
  refine List.Perm.eq_of_pairwise (fun a b ha hb hab hba => ?_) hsorted
    (hts.imp fun hlt => decide_eq_true (UInt64.le_of_lt hlt)) hperm
  -- Two entries with the same tag are the same entry.
  have hsame : a.1 = b.1 := UInt64.le_antisymm (of_decide_eq_true hab) (of_decide_eq_true hba)
  have hapart : (ts.map (·.1)).Nodup := (hts.imp fun hlt => UInt64.ne_of_lt hlt).map _ fun _ _ => id
  exact List.inj_on_of_nodup_map hapart (hperm.mem_iff.mp ha) hb hsame

/-- Every arrangement has tags that lead to it. -/
theorem exists_sortByTag_eq {xs ys : List α} (hlen : xs.length ≤ UInt64.size) (h : ys.Perm xs) :
    ∃ draws : Draws, draws.sortByTag xs = ys := by
  let ts := ys.zipIdx.map fun (y, i) => (UInt64.ofNat i, y)
  have hmap : ts.map (·.2) = ys := map_snd_tagged UInt64.ofNat ys
  have hts : ts.Pairwise fun a b => a.1 < b.1 := by
    refine List.pairwise_iff_getElem.mpr fun i j hi hj hij => ?_
    have hbound : ts.length = xs.length := by rw [List.length_map, List.length_zipIdx, h.length_eq]
    simp only [ts, List.getElem_map, List.getElem_zipIdx, Nat.zero_add]
    rw [UInt64.lt_iff_toNat_lt, UInt64.toNat_ofNat_of_lt' (by omega),
      UInt64.toNat_ofNat_of_lt' (by omega)]
    exact hij
  -- The same tagged elements in the order of `xs`.
  have hxs : xs.Perm (ts.map (·.2)) := hmap.symm ▸ h.symm
  obtain ⟨us, rfl, hperm⟩ := (congrFun₂ (List.eq_map_comp_perm (·.2)) xs ts).mpr hxs
  refine ⟨fun i => (us[i]?.map (·.1)).getD 0, ?_⟩
  have htagged : ((us.map (·.2)).zipIdx.map fun (x, i) => ((us[i]?.map (·.1)).getD 0, x)) = us := by
    refine List.ext_getElem (by simp) fun i hi hi' => ?_
    simp [List.getElem?_eq_getElem hi']
  unfold sortByTag
  rw [htagged, mergeSort_eq_of_ascending hperm hts, hmap]

end Draws
end GridOps
