import GridOps.Proofs.Join.SingleKey
import GridOps.Proofs.Relation.Shuffle
import GridOps.Relation.Generate
import Mathlib.Algebra.Order.Floor.Div

/-!
Foreign keys dealt out in turn.

The rows of the foreign relation take the primary keys one after the other, and again from the
first.  How many rows a place of the primary relation gets is its number of turns, and what comes
out is some order of these shares (`foreign_outcome`), whatever is drawn; every order can come out.
-/

namespace GridOps
namespace Relation

/-- How many of `n` rows the place `q` of `m` places gets when they take turns. -/
def turns (n m q : Nat) : Nat := n / m + if q < n % m then 1 else 0

/-- The keys of `n` rows that the places of `primary` take in turn, place by place. -/
def shares {K : Type} (primary : Array K) (n : Nat) : List K :=
  primary.toList.zipIdx.flatMap fun (key, q) => List.replicate (turns n primary.size q) key

/-! ## Turns -/

theorem turns_zero (m q : Nat) : turns 0 m q = 0 := by simp [turns]

/-- The row after `n` rows falls to place `n % m`. -/
theorem turns_succ {n m q : Nat} (hq : q < m) :
    turns (n + 1) m q = turns n m q + if q = n % m then 1 else 0 := by
  have hm : 0 < m := Nat.zero_lt_of_lt hq
  have hn := Nat.div_add_mod n m
  have hlt := Nat.mod_lt n hm
  unfold turns
  by_cases hlast : n % m + 1 = m
  · have hsucc : n + 1 = m * (n / m + 1) := by
      rw [Nat.mul_add, Nat.mul_one]
      omega
    rw [hsucc, Nat.mul_div_cancel_left _ hm, Nat.mul_mod_right]
    split <;> split <;> split <;> omega
  · have hsucc : n + 1 = m * (n / m) + (n % m + 1) := by omega
    have hdiv : (n + 1) / m = n / m := by
      rw [hsucc, Nat.mul_add_div hm, Nat.div_eq_of_lt (show n % m + 1 < m by omega),
        Nat.add_zero]
    have hmod : (n + 1) % m = n % m + 1 := by
      rw [hsucc, Nat.mul_add_mod, Nat.mod_eq_of_lt (show n % m + 1 < m by omega)]
    rw [hdiv, hmod]
    split <;> split <;> split <;> omega

theorem le_turns (n m q : Nat) : n / m ≤ turns n m q := Nat.le_add_right ..

theorem turns_le {m : Nat} (hm : 0 < m) (n q : Nat) : turns n m q ≤ n ⌈/⌉ m := by
  have hceil : n ≤ m * (n ⌈/⌉ m) := le_smul_ceilDiv hm
  have hn := Nat.div_add_mod n m
  unfold turns
  split
  · rename_i hrest
    by_contra hless
    have hmul : m * (n ⌈/⌉ m) ≤ m * (n / m) := Nat.mul_le_mul_left m (by omega)
    omega
  · rw [Nat.add_zero]
    refine Nat.le_of_mul_le_mul_left ?_ hm
    omega

/-! ## Shares -/

variable {K : Type} {primary : Array K}

/-- The share of one place beside those of the others. -/
theorem exists_shares_perm {q : Nat} (hq : q < primary.size) :
    ∃ others : List (K × Nat),
      (∀ x ∈ others, primary[x.2]? = some x.1 ∧ x.2 ≠ q) ∧
      ∀ n, (shares primary n).Perm (List.replicate (turns n primary.size q) primary[q] ++
        others.flatMap fun x => List.replicate (turns n primary.size x.2) x.1) := by
  have hmem : (primary[q], q) ∈ primary.toList.zipIdx := by
    rw [List.mk_mem_zipIdx_iff_getElem?]
    simp [hq]
  obtain ⟨before, after, hsplit⟩ := List.append_of_mem hmem
  have hperm : primary.toList.zipIdx.Perm ((primary[q], q) :: (before ++ after)) := by
    rw [hsplit]
    exact List.perm_middle
  have hplaces : (((primary[q], q) :: (before ++ after)).map (·.2)).Nodup := by
    rw [← (hperm.map _).nodup_iff, List.zipIdx_map_snd]
    exact List.nodup_range'
  refine ⟨before ++ after, fun x hx => ⟨?_, fun hplace => ?_⟩, fun n => ?_⟩
  · have hx' := hperm.mem_iff.mpr (List.mem_cons_of_mem _ hx)
    rw [List.mk_mem_zipIdx_iff_getElem?] at hx'
    simpa using hx'
  · have hplace' := List.mem_map_of_mem (f := (·.2)) hx
    rw [hplace] at hplace'
    exact (List.nodup_cons.mp hplaces).1 hplace'
  · exact hperm.flatMap_right _

/-- One more row falls to the place whose turn it is. -/
theorem shares_succ_perm (hpos : 0 < primary.size) (n : Nat) :
    (shares primary (n + 1)).Perm
      (getElem primary (n % primary.size) (Nat.mod_lt n hpos) :: shares primary n) := by
  obtain ⟨others, hothers, hshares⟩ := exists_shares_perm (Nat.mod_lt n hpos)
  have hsame : (others.flatMap fun x => List.replicate (turns (n + 1) primary.size x.2) x.1) =
      others.flatMap fun x => List.replicate (turns n primary.size x.2) x.1 := by
    refine List.flatMap_congr fun x hx => ?_
    obtain ⟨hkey, hne⟩ := hothers x hx
    rw [turns_succ (Array.getElem?_eq_some_iff.mp hkey).1, if_neg hne, Nat.add_zero]
  have hnext := hshares (n + 1)
  rw [hsame, turns_succ (Nat.mod_lt n hpos), if_pos rfl, List.replicate_succ] at hnext
  exact hnext.trans ((hshares n).symm.cons _)

/-- Rows that take the keys in turn have the shares of the places. -/
theorem map_range_perm_shares (hpos : 0 < primary.size) (n : Nat) :
    ((List.range n).map fun i => getElem primary (i % primary.size) (Nat.mod_lt i hpos)).Perm
      (shares primary n) := by
  induction n with
  | zero => simp [shares, turns_zero]
  | succ n ih =>
    rw [List.range_succ, List.map_append]
    exact (List.perm_append_singleton _ _).trans
      ((ih.cons _).trans (shares_succ_perm hpos n).symm)

theorem length_shares (hpos : 0 < primary.size) (n : Nat) : (shares primary n).length = n := by
  rw [← (map_range_perm_shares hpos n).length_eq, List.length_map, List.length_range]

theorem mem_of_mem_shares {n : Nat} {key : K} (h : key ∈ shares primary n) : key ∈ primary := by
  obtain ⟨⟨key', q⟩, hx, hkey⟩ := List.mem_flatMap.mp h
  obtain rfl : key = key' := List.eq_of_mem_replicate hkey
  exact Array.mem_toList_iff.mp (List.fst_mem_of_mem_zipIdx hx)

/-- If the keys are distinct, each occurs as often as its place has turns. -/
theorem count_shares [DecidableEq K] (hdistinct : primary.toList.Nodup) {q : Nat}
    (hq : q < primary.size) (n : Nat) :
    (shares primary n).count primary[q] = turns n primary.size q := by
  obtain ⟨others, hothers, hshares⟩ := exists_shares_perm hq
  have hnone : primary[q] ∉ others.flatMap fun x =>
      List.replicate (turns n primary.size x.2) x.1 := by
    intro hmem
    obtain ⟨x, hx, hkey⟩ := List.mem_flatMap.mp hmem
    obtain ⟨hsame, hne⟩ := hothers x hx
    obtain ⟨hlt, hplace⟩ := Array.getElem?_eq_some_iff.mp hsame
    rw [← List.eq_of_mem_replicate hkey] at hplace
    refine hne ((List.nodup_iff_injective_getElem.mp hdistinct).eq_iff
      (a := ⟨x.2, by simpa⟩) (b := ⟨q, by simpa⟩) |>.mp ?_ |> Fin.mk.inj_iff.mp)
    simpa using hplace
  rw [(hshares n).count_eq, List.count_append, List.count_replicate_self,
    List.count_eq_zero_of_not_mem hnone, Nat.add_zero]

/-! ## The foreign relation -/

/-- Rows that take the keys of a relation in turn; without keys they stay as they are. -/
theorem mapIdx_perm_shares (hpos : 0 < primary.size) (keys : Array K) :
    (keys.mapIdx fun i key => primary[i % primary.size]?.getD key).toList.Perm
      (shares primary keys.size) := by
  refine List.Perm.trans (.of_eq ?_) (map_range_perm_shares hpos keys.size)
  refine List.ext_getElem (by simp) fun i _ _ => ?_
  simp [Array.getElem?_eq_getElem (Nat.mod_lt i hpos)]

theorem mapIdx_of_empty (hempty : primary.size = 0) (keys : Array K) :
    (keys.mapIdx fun i key => primary[i % primary.size]?.getD key) = keys := by
  refine Array.ext (by simp) fun i _ _ => ?_
  simp [hempty]

/-- What is drawn decides the order only. -/
theorem foreign_ok (order : Draws) (primary keys : Array K) :
    ∃ keys', foreign primary order keys = .ok () keys' ∧ keys'.size = keys.size ∧
      keys'.toList.Perm (keys.mapIdx fun i key => primary[i % primary.size]?.getD key).toList :=
  ⟨_, rfl, by rw [Draws.size_shuffle, Array.size_mapIdx], Draws.shuffle_perm order _⟩

variable [JoinKey K] {keys' : Array K}

/-- If the primary keys are distinct, each foreign key matches exactly one of them. -/
theorem length_join_shares (hpos : 0 < primary.size) (hdistinct : primary.toList.Nodup) {n : Nat}
    (h : keys'.toList.Perm (shares primary n)) :
    (NestedLoop.join .inner Keying.sameKey (.ofKeys keys') (.ofKeys primary) keys'.size).length =
      n := by
  have hone : ∀ key ∈ keys'.toList, primary.toList.count key = 1 := fun key hkey =>
    List.count_eq_one_of_mem hdistinct
      (Array.mem_toList_iff.mpr (mem_of_mem_shares (h.mem_iff.mp hkey)))
  rw [NestedLoop.length_join_ofKeys (Nat.le_refl _), ← Array.length_toList, List.take_length,
    List.map_congr_left hone, List.map_const', List.sum_replicate, smul_eq_mul, Nat.mul_one,
    h.length_eq, length_shares hpos]

/-- Filling `keys` with foreign keys always succeeds and leaves their number.  Without primary keys
it only rearranges them.  Otherwise it leaves the shares of the primary keys in some order, and
there are draws for every order.  So if the primary keys are distinct, each occurs as often as its
place has turns, which is the number of rows divided by the number of primary keys, rounded down or
up; and each foreign key matches exactly one primary key. -/
theorem foreign_outcome (primary keys : Array K) :
    (∀ order, ∃ keys', foreign primary order keys = .ok () keys' ∧ keys'.size = keys.size ∧
      (primary.size = 0 → keys'.toList.Perm keys.toList) ∧
      (0 < primary.size → keys'.toList.Perm (shares primary keys.size)) ∧
      (0 < primary.size → primary.toList.Nodup →
        (∀ (q : Nat) (hq : q < primary.size),
          keys'.toList.count primary[q] = turns keys.size primary.size q ∧
          keys.size / primary.size ≤ keys'.toList.count primary[q] ∧
          keys'.toList.count primary[q] ≤ keys.size ⌈/⌉ primary.size) ∧
        (NestedLoop.join .inner Keying.sameKey (.ofKeys keys') (.ofKeys primary)
          keys'.size).length =
          keys.size)) ∧
    (keys.size ≤ UInt64.size → 0 < primary.size → ∀ keys' : Array K,
      keys'.toList.Perm (shares primary keys.size) →
      ∃ order, foreign primary order keys = .ok () keys') := by
  constructor
  · intro order
    obtain ⟨keys', hforeign, hsize, hperm⟩ := foreign_ok order primary keys
    have hshares : 0 < primary.size → keys'.toList.Perm (shares primary keys.size) := fun hpos =>
      hperm.trans (mapIdx_perm_shares hpos keys)
    refine ⟨keys', hforeign, hsize, fun hempty => ?_, hshares, fun hpos hdistinct => ⟨?_, ?_⟩⟩
    · rwa [mapIdx_of_empty hempty] at hperm
    · intro q hq
      have hcount : keys'.toList.count primary[q] = turns keys.size primary.size q :=
        ((hshares hpos).count_eq _).trans (count_shares hdistinct hq keys.size)
      rw [hcount]
      exact ⟨rfl, le_turns .., turns_le hpos ..⟩
    · exact length_join_shares hpos hdistinct (hshares hpos)
  · intro hsize hpos keys' hperm
    obtain ⟨order, horder⟩ := Draws.exists_shuffle_eq (by rwa [Array.size_mapIdx])
      (hperm.trans (mapIdx_perm_shares hpos keys).symm)
    exact ⟨order, congrArg (EStateM.Result.ok ()) horder⟩

/-- Seven rows and three keys: the first key gets three rows. -/
theorem foreign_outcome_seven : ∃ keys' : Array Int32,
    foreign #[10, -20, 30] (Draws.ofSeed 1) (Array.replicate 7 0) = .ok () keys' ∧
      keys'.toList.Perm [10, 10, 10, -20, -20, 30, 30] ∧ keys'.toList.count (-20) = 2 ∧
      (NestedLoop.join .inner Keying.sameKey (.ofKeys keys') (.ofKeys #[10, -20, 30])
        keys'.size).length = 7 := by
  obtain ⟨keys', hforeign, -, -, hshares, hdistinct⟩ :=
    (foreign_outcome (#[10, -20, 30] : Array Int32) (Array.replicate 7 0)).1 (Draws.ofSeed 1)
  obtain ⟨hcounts, hjoin⟩ := hdistinct (by decide) (by decide)
  exact ⟨keys', hforeign, hshares (by decide), (hcounts 1 (by decide)).1, hjoin⟩

end Relation
end GridOps
