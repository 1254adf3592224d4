import GridOps.Device.Dispatch

/-!
What the workers of a launch are handed.

The dispatcher hands out the grid without gap or overlap until its offset has passed the end
(`blocks_handedOut_start`).  Then each worker has to be refused once, and every refusal moves the
offset on.  Nothing is handed out again exactly if the offset stays past the grid all the while
(`handedOut_eq_nil_iff`); an offset that wraps may come back.
-/

namespace GridOps
namespace Dispatcher

variable {d : Dispatcher}

/-! ## Requests -/

/-- The dispatcher after `n` requests, whatever their answers. -/
def after (d : Dispatcher) (n : Nat) : Dispatcher :=
  { d with offset := UInt64.ofNat (d.offset.toNat + n * d.morsel.toNat) }

theorem toNat_offset_after (d : Dispatcher) (n : Nat) :
    (d.after n).offset.toNat = (d.offset.toNat + n * d.morsel.toNat) % UInt64.size :=
  UInt64.toNat_ofNat'

theorem after_zero (d : Dispatcher) : d.after 0 = d := by
  unfold after
  rw [Nat.zero_mul, Nat.add_zero, UInt64.ofNat_toNat]

theorem after_after (d : Dispatcher) (m n : Nat) : (d.after m).after n = d.after (m + n) := by
  have hoffset : ((d.after m).after n).offset = (d.after (m + n)).offset := UInt64.toNat.inj (by
    rw [toNat_offset_after, toNat_offset_after, toNat_offset_after, Nat.mod_add_mod, Nat.add_mul,
      Nat.add_assoc]
    rfl)
  exact congrArg (fun offset => ({ d with offset := offset } : Dispatcher)) hoffset

theorem next_snd (d : Dispatcher) : d.next.2 = d.after 1 := by
  have hoffset : d.offset + d.morsel = (d.after 1).offset := UInt64.toNat.inj (by
    rw [toNat_offset_after, UInt64.toNat_add, Nat.one_mul])
  have hmoved : d.next.2 = { d with offset := d.offset + d.morsel } := by
    unfold next
    dsimp only
    split <;> rfl
  rw [hmoved, hoffset]
  rfl

theorem next_of_lt (h : d.offset.toNat < d.grid.toNat) :
    d.next = (some ⟨d.offset.toNat, min (d.grid.toNat - d.offset.toNat) d.morsel.toNat⟩,
      d.after 1) := by
  refine Prod.ext ?_ d.next_snd
  unfold next
  rw [if_pos]
  rwa [UInt64.lt_iff_toNat_lt, UInt32.toNat_toUInt64]

theorem next_of_le (h : d.grid.toNat ≤ d.offset.toNat) : d.next = (none, d.after 1) := by
  refine Prod.ext ?_ d.next_snd
  unfold next
  rw [if_neg]
  rw [UInt64.lt_iff_toNat_lt, UInt32.toNat_toUInt64]
  omega

/-! ## The number of requests -/

/-- At most so many requests are answered one after another.  Within the grid the offset ascends,
or descends if a morsel is nearly as long as the range of the offset. -/
def streak (d : Dispatcher) : Nat :=
  if d.grid.toNat ≤ d.offset.toNat then 0
  else if d.morsel.toNat < 9223372036854775808 then d.grid.toNat - d.offset.toNat
  else d.offset.toNat + 1

theorem streak_le (d : Dispatcher) : d.streak ≤ d.grid.toNat := by
  unfold streak
  split
  · omega
  · split <;> omega

theorem streak_after (hm : 0 < d.morsel.toNat) (h : d.offset.toNat < d.grid.toNat) :
    (d.after 1).streak < d.streak := by
  have hgrid := d.grid.toNat_lt
  have hmorsel := d.morsel.toNat_lt
  have hoffset := d.toNat_offset_after 1
  rw [Nat.one_mul, show UInt64.size = 18446744073709551616 from rfl] at hoffset
  have hsame : (d.after 1).grid = d.grid ∧ (d.after 1).morsel = d.morsel := ⟨rfl, rfl⟩
  unfold streak
  rw [hsame.1, hsame.2, hoffset, if_neg (Nat.not_le_of_lt h)]
  split
  · split <;> omega
  · split <;> omega

/-- At most so many requests are made until so many workers have been refused. -/
def requests (d : Dispatcher) : (workers : Nat) → Nat
  | 0 => 0
  | workers + 1 => workers * (d.grid.toNat + 1) + d.streak + 1

theorem requests_le (d : Dispatcher) (workers : Nat) :
    d.requests workers ≤ workers * (d.grid.toNat + 1) := by
  cases workers with
  | zero => exact Nat.zero_le _
  | succ workers =>
    have hstreak := d.streak_le
    rw [requests, Nat.succ_mul]
    omega

theorem requests_of_lt (hm : 0 < d.morsel.toNat) (h : d.offset.toNat < d.grid.toNat)
    (workers : Nat) : (d.after 1).requests (workers + 1) < d.requests (workers + 1) := by
  have hstreak := streak_after hm h
  show workers * (d.grid.toNat + 1) + (d.after 1).streak + 1 < _
  rw [requests]
  omega

theorem requests_of_le (d : Dispatcher) (workers : Nat) :
    (d.after 1).requests workers < d.requests (workers + 1) := by
  have hle : (d.after 1).requests workers ≤ workers * (d.grid.toNat + 1) :=
    (d.after 1).requests_le workers
  rw [requests]
  omega

/-! ## Morsels -/

/-- The morsels handed out until so many workers have been refused. -/
def handedOut (d : Dispatcher) (workers : Nat) : List Morsel := drain (d.requests workers) workers d

@[simp] theorem handedOut_zero (d : Dispatcher) : d.handedOut 0 = [] := rfl

/-- Requests beyond those that are made change nothing. -/
theorem drain_of_le (hm : 0 < d.morsel.toNat) {workers fuel fuel' : Nat}
    (h : d.requests workers ≤ fuel) (h' : d.requests workers ≤ fuel') :
    drain fuel workers d = drain fuel' workers d := by
  induction fuel generalizing d workers fuel' with
  | zero =>
    cases workers with
    | zero => cases fuel' <;> rfl
    | succ workers => exact absurd h (Nat.not_succ_le_zero _)
  | succ fuel ih =>
    cases workers with
    | zero => cases fuel' <;> rfl
    | succ workers =>
      obtain ⟨fuel', rfl⟩ : ∃ n, fuel' = n + 1 :=
        Nat.exists_eq_add_one.mpr (Nat.lt_of_lt_of_le (Nat.succ_pos _) h')
      rw [drain, drain]
      rcases Nat.lt_or_ge d.offset.toNat d.grid.toNat with hlt | hge
      · have hless := requests_of_lt hm hlt workers
        rw [next_of_lt hlt]
        exact congrArg _ (ih (d := d.after 1) hm (by omega) (by omega))
      · have hless := d.requests_of_le workers
        rw [next_of_le hge]
        exact ih (d := d.after 1) hm (by omega) (by omega)

theorem handedOut_of_lt (hm : 0 < d.morsel.toNat) (h : d.offset.toNat < d.grid.toNat)
    (workers : Nat) : d.handedOut (workers + 1) =
      ⟨d.offset.toNat, min (d.grid.toNat - d.offset.toNat) d.morsel.toNat⟩ ::
        (d.after 1).handedOut (workers + 1) := by
  have hless := requests_of_lt hm h workers
  show drain (workers * (d.grid.toNat + 1) + d.streak + 1) (workers + 1) d = _
  rw [drain, next_of_lt h]
  exact congrArg _ (drain_of_le (d := d.after 1) hm (Nat.le_of_lt_succ hless) (Nat.le_refl _))

theorem handedOut_of_le (hm : 0 < d.morsel.toNat) (h : d.grid.toNat ≤ d.offset.toNat)
    (workers : Nat) : d.handedOut (workers + 1) = (d.after 1).handedOut workers := by
  have hless := d.requests_of_le workers
  show drain (workers * (d.grid.toNat + 1) + d.streak + 1) (workers + 1) d = _
  rw [drain, next_of_le h]
  exact drain_of_le (d := d.after 1) hm (Nat.le_of_lt_succ hless) (Nat.le_refl _)

/-- A morsel has blocks, and only blocks of the grid. -/
theorem within_of_mem_handedOut (hm : 0 < d.morsel.toNat) {workers : Nat} {m : Morsel}
    (h : m ∈ d.handedOut workers) : 0 < m.count ∧ m.first + m.count ≤ d.grid.toNat := by
  induction hn : d.requests workers using Nat.strongRecOn generalizing d workers with
  | ind n ih =>
    subst hn
    cases workers with
    | zero => cases h
    | succ workers =>
      rcases Nat.lt_or_ge d.offset.toNat d.grid.toNat with hlt | hge
      · rw [handedOut_of_lt hm hlt, List.mem_cons] at h
        rcases h with rfl | h
        · dsimp only
          omega
        · exact ih _ (requests_of_lt hm hlt workers) (d := d.after 1) hm h rfl
      · rw [handedOut_of_le hm hge] at h
        exact ih _ (d.requests_of_le workers) (d := d.after 1) hm h rfl

/-- Nothing is handed out any more exactly if the offset is past the grid at the next requests, one
for each worker. -/
theorem handedOut_eq_nil_iff (hm : 0 < d.morsel.toNat) {workers : Nat} :
    d.handedOut workers = [] ↔ ∀ i < workers, d.grid.toNat ≤ (d.after i).offset.toNat := by
  induction workers generalizing d with
  | zero => simp
  | succ workers ih =>
    rcases Nat.lt_or_ge d.offset.toNat d.grid.toNat with hlt | hge
    · rw [handedOut_of_lt hm hlt]
      refine iff_of_false (List.cons_ne_nil _ _) fun h => ?_
      have hfirst := h 0 (Nat.succ_pos workers)
      rw [after_zero] at hfirst
      omega
    · rw [handedOut_of_le hm hge, ih (d := d.after 1) hm]
      constructor
      · intro h i hi
        cases i with
        | zero => rwa [after_zero]
        | succ i =>
          rw [Nat.add_comm, ← after_after]
          exact h i (Nat.lt_of_succ_lt_succ hi)
      · intro h i hi
        rw [after_after, Nat.add_comm]
        exact h (i + 1) (Nat.succ_lt_succ hi)

/-! ## A launch -/

/-- So many morsels cover the grid. -/
def rounds (d : Dispatcher) : Nat := (d.grid.toNat + d.morsel.toNat - 1) / d.morsel.toNat

theorem rounds_bounds (hm : 0 < d.morsel.toNat) :
    d.grid.toNat ≤ d.rounds * d.morsel.toNat ∧
      d.rounds * d.morsel.toNat < d.grid.toNat + d.morsel.toNat := by
  have hdiv := Nat.div_add_mod (d.grid.toNat + d.morsel.toNat - 1) d.morsel.toNat
  have hmod := Nat.mod_lt (d.grid.toNat + d.morsel.toNat - 1) hm
  rw [Nat.mul_comm] at hdiv
  unfold rounds
  omega

theorem lt_of_lt_rounds (hm : 0 < d.morsel.toNat) {n : Nat} (hn : n < d.rounds) :
    n * d.morsel.toNat < d.grid.toNat := by
  have hle : (n + 1) * d.morsel.toNat ≤ d.rounds * d.morsel.toNat := Nat.mul_le_mul_right _ hn
  have hbounds := (rounds_bounds hm).2
  rw [Nat.succ_mul] at hle
  omega

/-- The offset does not wrap before it has passed the grid: either the first morsel is the whole
grid, or morsels are shorter than the grid. -/
theorem rounds_lt (hm : 0 < d.morsel.toNat) : d.rounds * d.morsel.toNat < UInt64.size := by
  have hgrid := d.grid.toNat_lt
  have hmorsel := d.morsel.toNat_lt
  have hsize : UInt64.size = 18446744073709551616 := rfl
  have hlast := (rounds_bounds hm).2
  rcases Nat.lt_or_ge 1 d.rounds with hmany | hone
  · have hshort := lt_of_lt_rounds hm hmany
    omega
  · have hmul := Nat.mul_le_mul_right d.morsel.toNat hone
    omega

/-- The first morsels are the grid's, in ascending order; the others follow. -/
theorem blocks_handedOut (hm : 0 < d.morsel.toNat) (hzero : d.offset = 0) (workers : Nat) {n : Nat}
    (hn : n ≤ d.rounds) : (d.handedOut (workers + 1)).flatMap Morsel.blocks =
      List.range (min d.grid.toNat (n * d.morsel.toNat)) ++
        ((d.after n).handedOut (workers + 1)).flatMap Morsel.blocks := by
  induction n with
  | zero => rw [after_zero, Nat.zero_mul, Nat.min_zero, List.range_zero, List.nil_append]
  | succ n ih =>
    have hgrid := d.grid.toNat_lt
    have hlt := lt_of_lt_rounds hm hn
    have hoffset : (d.after n).offset.toNat = n * d.morsel.toNat := by
      rw [toNat_offset_after, hzero, UInt64.toNat_zero, Nat.zero_add, Nat.mod_eq_of_lt]
      exact Nat.lt_trans hlt (Nat.lt_trans hgrid (by decide))
    have hnext := handedOut_of_lt (d := d.after n) hm (by rw [hoffset]; exact hlt) workers
    have hblocks : List.range (min d.grid.toNat ((n + 1) * d.morsel.toNat)) =
        List.range (n * d.morsel.toNat) ++ List.range' (n * d.morsel.toNat)
          (min (d.grid.toNat - n * d.morsel.toNat) d.morsel.toNat) := by
      have happ := List.range'_append_1 (s := 0) (m := n * d.morsel.toNat)
        (n := min (d.grid.toNat - n * d.morsel.toNat) d.morsel.toNat)
      rw [Nat.zero_add] at happ
      rw [List.range_eq_range', List.range_eq_range', happ]
      congr 1
      rw [Nat.succ_mul]
      omega
    rw [ih (Nat.le_of_succ_le hn), hnext, List.flatMap_cons, after_after, hblocks, hoffset,
      Nat.min_eq_right (Nat.le_of_lt hlt), List.append_assoc]
    rfl

/-- What is handed out after the whole grid, until all workers have been refused. -/
def again (d : Dispatcher) (workers : Nat) : List Morsel := (d.after d.rounds).handedOut workers

theorem within_of_mem_again (hm : 0 < d.morsel.toNat) {workers : Nat} {m : Morsel}
    (h : m ∈ d.again workers) : 0 < m.count ∧ m.first + m.count ≤ d.grid.toNat :=
  within_of_mem_handedOut (d := d.after d.rounds) hm h

theorem again_eq_nil_iff (hm : 0 < d.morsel.toNat) (hzero : d.offset = 0) {workers : Nat} :
    d.again workers = [] ↔
      ∀ i < workers, d.grid.toNat ≤ (d.rounds + i) * d.morsel.toNat % UInt64.size := by
  have hoffset : ∀ n, (d.after n).offset.toNat = n * d.morsel.toNat % UInt64.size := fun n => by
    rw [toNat_offset_after, hzero, UInt64.toNat_zero, Nat.zero_add]
  rw [again, handedOut_eq_nil_iff (d := d.after d.rounds) hm]
  simp only [after_after, hoffset]
  rfl

/-- If the offset cannot wrap before the last worker is refused, it stays past the grid. -/
theorem le_of_no_wrap (hm : 0 < d.morsel.toNat) {workers : Nat}
    (h : d.grid.toNat + workers * d.morsel.toNat ≤ UInt64.size) {i : Nat} (hi : i < workers) :
    d.grid.toNat ≤ (d.rounds + i) * d.morsel.toNat % UInt64.size := by
  obtain ⟨hall, hlast⟩ := rounds_bounds hm
  have hmul : (i + 1) * d.morsel.toNat ≤ workers * d.morsel.toNat := Nat.mul_le_mul_right _ hi
  rw [Nat.succ_mul] at hmul
  rw [Nat.add_mul, Nat.mod_eq_of_lt (by omega)]
  omega

theorem toNat_max_one (n : UInt64) : (max n 1).toNat = max n.toNat 1 := by
  show (if n ≤ 1 then 1 else n).toNat = _
  have hone : (1 : UInt64).toNat = 1 := rfl
  split <;> rename_i h <;> rw [UInt64.le_iff_toNat_le] at h <;> omega

theorem start_pos (grid : UInt32) (morsel : UInt64) : 0 < (start grid morsel).morsel.toNat := by
  show 0 < (max morsel 1).toNat
  rw [toNat_max_one]
  omega

theorem morsels_eq (grid : UInt32) (morsel : UInt64) (workers : Nat) :
    morsels grid morsel workers = (start grid morsel).handedOut workers := by
  refine drain_of_le (start_pos grid morsel) (Nat.le_trans (requests_le _ workers) ?_)
    (Nat.le_refl _)
  exact Nat.mul_le_mul_right _ (Nat.le_succ workers)

/-- The workers of a launch are handed the whole grid, and then what is handed out again. -/
theorem blocks_morsels (grid : UInt32) (morsel : UInt64) (workers : Nat) :
    (morsels grid morsel (workers + 1)).flatMap Morsel.blocks = List.range grid.toNat ++
      ((start grid morsel).again (workers + 1)).flatMap Morsel.blocks := by
  have hm := start_pos grid morsel
  have hall : grid.toNat ≤ _ := (rounds_bounds hm).1
  rw [morsels_eq, blocks_handedOut hm rfl workers (Nat.le_refl _)]
  congr 2
  exact Nat.min_eq_left hall

/-- One worker is handed every block of the grid, in ascending order. -/
theorem morsels_one_worker (grid : UInt32) (morsel : UInt64) :
    (morsels grid morsel 1).flatMap Morsel.blocks = List.range grid.toNat := by
  have hm := start_pos grid morsel
  have hagain : (start grid morsel).again 1 = [] := by
    refine (again_eq_nil_iff hm rfl).mpr fun i hi => ?_
    obtain rfl := Nat.lt_one_iff.mp hi
    rw [Nat.add_zero, Nat.mod_eq_of_lt (rounds_lt hm)]
    exact (rounds_bounds hm).1
  rw [blocks_morsels grid morsel 0, hagain, List.flatMap_nil, List.append_nil]

/-- Blocks are handed out if they are in the grid. -/
theorem mem_morsels (grid : UInt32) (morsel : UInt64) (workers b : Nat) :
    b ∈ (morsels grid morsel (workers + 1)).flatMap Morsel.blocks ↔ b < grid.toNat := by
  rw [blocks_morsels, List.mem_append, List.mem_range, or_iff_left_of_imp]
  intro hb
  obtain ⟨m, hmem, hm⟩ := List.mem_flatMap.mp hb
  obtain ⟨-, hle⟩ := within_of_mem_again (start_pos grid morsel) hmem
  have hrange := List.mem_range'_1.mp hm
  have hgrid : m.first + m.count ≤ grid.toNat := hle
  omega

end Dispatcher
end GridOps
