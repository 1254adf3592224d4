import GridOps.Device.Crew
import GridOps.Proofs.Device.Schedule
import Mathlib.Data.List.Nodup

/-!
What the workers of a launch run, in every schedule.

The threads that were run, the threads that busy workers still have to run, and those of the morsels
that the dispatcher will hand out are together always the same (`Sound.step`), whichever worker
takes the next step.  So when all workers have been refused, the kernel has been run for the threads
of `Device.threads`, each as often as it occurs there.  These are the threads of the grid, and then
those of the blocks that are handed out again (`Device.threads_eq`).
-/

namespace GridOps

/-! ## The threads of a grid -/

namespace Launch

theorem mem_allThreads {l : Launch} {t : Thread} :
    t ∈ l.allThreads ↔ t.launch = l ∧ t.blockIdx < l.grid ∧ t.lane < l.block := by
  have hgrid := l.grid.toNat_lt
  have hblock := l.block.toNat_lt
  simp only [allThreads, blockThreads, List.mem_flatMap, List.mem_map, List.mem_range,
    UInt32.lt_iff_toNat_lt]
  constructor
  · rintro ⟨b, hb, n, hn, rfl⟩
    refine ⟨rfl, ?_, ?_⟩
    · rwa [UInt32.toNat_ofNat_of_lt' (Nat.lt_trans hb hgrid)]
    · rwa [UInt32.toNat_ofNat_of_lt' (Nat.lt_trans hn hblock)]
  · rintro ⟨rfl, hb, hn⟩
    exact ⟨_, hb, _, hn, by rw [UInt32.ofNat_toNat, UInt32.ofNat_toNat]⟩

theorem nodup_allThreads (l : Launch) : l.allThreads.Nodup := by
  refine List.Nodup.of_map Thread.global ?_
  rw [l.map_global_allThreads]
  exact List.nodup_range

/-- The kernel was run for each thread of the grid once, and for no other thread. -/
structure InvokedOnce (l : Launch) (ran : List Thread) : Prop where
  grid : ∀ t ∈ ran, t.launch = l ∧ t.blockIdx < l.grid ∧ t.lane < l.block
  once : ∀ block lane, block < l.grid → lane < l.block → ran.count ⟨l, block, lane⟩ = 1

theorem invokedOnce_iff {l : Launch} {ran : List Thread} :
    l.InvokedOnce ran ↔ ran.Perm l.allThreads := by
  constructor
  · intro h
    refine List.perm_iff_count.mpr fun t => ?_
    by_cases ht : t ∈ l.allThreads
    · obtain ⟨rfl, hblock, hlane⟩ := mem_allThreads.mp ht
      rw [List.count_eq_one_of_mem (nodup_allThreads _) ht]
      exact h.once t.blockIdx t.lane hblock hlane
    · rw [List.count_eq_zero_of_not_mem ht, List.count_eq_zero_of_not_mem]
      exact fun hran => ht (mem_allThreads.mpr (h.grid t hran))
  · intro h
    refine ⟨fun t ht => mem_allThreads.mp (h.mem_iff.mp ht), fun block lane hblock hlane => ?_⟩
    rw [h.count_eq]
    exact List.count_eq_one_of_mem l.nodup_allThreads (mem_allThreads.mpr ⟨rfl, hblock, hlane⟩)

/-- The threads that a worker runs for a morsel. -/
def morselThreads (l : Launch) (m : Morsel) : List Thread := m.blocks.flatMap l.blockThreads

theorem morselThreads_ne_nil {l : Launch} (hblock : l.block ≠ 0) {m : Morsel} (hm : 0 < m.count) :
    l.morselThreads m ≠ [] := by
  have hpos := toNat_pos hblock
  have hfirst : m.first ∈ m.blocks := List.mem_range'_1.mpr ⟨Nat.le_refl _, by omega⟩
  have hlane : ⟨l, UInt32.ofNat m.first, UInt32.ofNat 0⟩ ∈ l.blockThreads m.first :=
    List.mem_map_of_mem (List.mem_range.mpr hpos)
  exact List.ne_nil_of_mem (List.mem_flatMap.mpr ⟨_, hfirst, hlane⟩)

end Launch

/-! ## The threads that are handed out -/

namespace Device

variable {d : Device} {l : Launch}

/-- The dispatcher's offset stays past the grid from the first refusal of a worker to the last.
With `k` the number of morsels that cover the grid, request `k + i` finds it at `(k + i) * morsel`,
as far as a word holds that. -/
def StaysPast (d : Device) (l : Launch) : Prop :=
  ∀ i < d.busyWorkers l.grid, l.grid.toNat ≤
    ((l.grid.toNat + d.morsel.toNat - 1) / d.morsel.toNat + i) * d.morsel.toNat % UInt64.size

instance (d : Device) (l : Launch) : Decidable (d.StaysPast l) :=
  inferInstanceAs (Decidable (∀ i < d.busyWorkers l.grid, _))

theorem start_morsel (hm : 0 < d.morsel.toNat) (grid : UInt32) :
    (Dispatcher.start grid d.morsel).morsel.toNat = d.morsel.toNat := by
  show (max d.morsel 1).toNat = _
  rw [Dispatcher.toNat_max_one]
  omega

/-- The threads of the grid, and then those of the blocks that are handed out again. -/
theorem threads_eq (d : Device) (l : Launch) :
    d.threads l = l.allThreads ++ ((Dispatcher.start l.grid d.morsel).again
      (d.busyWorkers l.grid)).flatMap l.morselThreads := by
  obtain ⟨workers, hworkers⟩ : ∃ workers, d.busyWorkers l.grid = workers + 1 :=
    Nat.exists_eq_add_one.mpr (Nat.le_max_right _ 1)
  rw [threads, hworkers, ← List.flatMap_assoc, Dispatcher.blocks_morsels, List.flatMap_append,
    List.flatMap_assoc]
  rfl

theorem again_eq_nil_iff (hm : 0 < d.morsel.toNat) :
    (Dispatcher.start l.grid d.morsel).again (d.busyWorkers l.grid) = [] ↔ d.StaysPast l := by
  rw [Dispatcher.again_eq_nil_iff (Dispatcher.start_pos _ _) rfl, Dispatcher.rounds,
    start_morsel hm]
  rfl

/-- Each thread is handed out once exactly if the offset stays past the grid. -/
theorem threads_perm_iff (hm : 0 < d.morsel.toNat) (hblock : l.block ≠ 0) :
    (d.threads l).Perm l.allThreads ↔ d.StaysPast l := by
  rw [← again_eq_nil_iff hm, d.threads_eq l]
  constructor
  · intro h
    have hlength := h.length_eq
    rw [List.length_append, Nat.add_eq_left, List.length_eq_zero_iff, List.flatMap_eq_nil_iff]
      at hlength
    refine List.eq_nil_iff_forall_not_mem.mpr fun m hmem => ?_
    have hcount := (Dispatcher.within_of_mem_again (Dispatcher.start_pos _ _) hmem).1
    exact Launch.morselThreads_ne_nil hblock hcount (hlength m hmem)
  · intro h
    rw [h, List.flatMap_nil, List.append_nil]

theorem staysPast_of_le (hm : 0 < d.morsel.toNat)
    (h : l.grid.toNat + d.busyWorkers l.grid * d.morsel.toNat ≤ UInt64.size) : d.StaysPast l := by
  intro i hi
  have hmorsel := start_morsel hm l.grid
  have hle := Dispatcher.le_of_no_wrap (Dispatcher.start_pos l.grid d.morsel)
    (by rw [hmorsel]; exact h) hi
  rwa [Dispatcher.rounds, hmorsel] at hle

/-- A device that may change the order of the threads that are handed out, but no more, runs every
thread of every launch once if its morsels are short enough. -/
theorem runsAll_of_le
    (horder : ∀ (n : Nat) (threads : List Thread), (d.order n threads).Perm threads)
    (hm : 0 < d.morsel.toNat)
    (h : UInt32.size + d.workers * d.morsel.toNat + d.morsel.toNat ≤ UInt64.size) : d.RunsAll := by
  intro n l
  have hgrid := l.grid.toNat_lt
  have hworkers : d.busyWorkers l.grid ≤ d.workers + 1 := by
    unfold busyWorkers
    omega
  have hmul := Nat.mul_le_mul_right d.morsel.toNat hworkers
  have hsize : UInt32.size = 4294967296 := rfl
  rw [Nat.succ_mul] at hmul
  have hagain := (again_eq_nil_iff hm).mpr (staysPast_of_le (l := l) hm (by omega))
  refine (horder n _).trans ?_
  rw [threads_eq, hagain, List.flatMap_nil, List.append_nil]

end Device

/-! ## One step -/

/-- What a changed element adds to a joined list, and what it takes away. -/
theorem flatMap_set_perm {α β : Type} (f : α → List β) {l : List α} {i : Nat} {a : α}
    (h : l[i]? = some a) (b : α) :
    ((l.set i b).flatMap f ++ f a).Perm (l.flatMap f ++ f b) := by
  induction l generalizing i with
  | nil => cases h
  | cons x l ih =>
    cases i with
    | zero =>
      cases h
      rw [List.set_cons_zero, List.flatMap_cons, List.flatMap_cons, List.append_assoc,
        List.append_assoc]
      refine List.perm_append_comm.trans ?_
      rw [List.append_assoc]
      exact List.perm_append_comm_assoc _ _ _
    | succ i =>
      rw [List.set_cons_succ, List.flatMap_cons, List.flatMap_cons, List.append_assoc,
        List.append_assoc]
      exact (ih h).append_left _

namespace Worker

def isBusy : Worker → Bool
  | busy _ => true
  | refused => false

end Worker

namespace Crew

variable {s : Crew} {w : Nat}

def busyCount (s : Crew) : Nat := s.workers.countP Worker.isBusy

/-- The threads that are still to be run: those left to the workers, and those of the morsels that
will be handed out. -/
def pending (s : Crew) : List Thread :=
  s.workers.flatMap Worker.left ++
    (s.dispatcher.handedOut s.busyCount).flatMap s.launch.morselThreads

/-- At most so many steps are left for the busy workers. -/
def work (s : Crew) : Nat := s.pending.length + s.dispatcher.requests s.busyCount

/-! ### What a step is -/

theorem step_of_idle (h : ∀ left, s.workers[w]? ≠ some (.busy left)) : s.step w = s := by
  unfold step
  split
  · rename_i hw
    exact absurd hw (h _)
  · rename_i hw
    exact absurd hw (h _)
  · rfl
  · rfl

theorem step_of_running {t : Thread} {left : List Thread}
    (h : s.workers[w]? = some (.busy (t :: left))) :
    s.step w = { s with workers := s.workers.set w (.busy left), ran := s.ran ++ [t] } := by
  unfold step
  rw [h]

theorem step_of_asking (h : s.workers[w]? = some (.busy [])) :
    s.step w = { s with
      dispatcher := s.dispatcher.after 1
      workers := s.workers.set w (.answered s.launch s.dispatcher.next.1) } := by
  unfold step
  rw [h, ← s.dispatcher.next_snd]

/-- What a busy worker becomes takes its place among the busy workers. -/
theorem busyCount_set {left : List Thread} (h : s.workers[w]? = some (.busy left)) (next : Worker) :
    (s.workers.set w next).countP Worker.isBusy + 1 =
      s.busyCount + if next.isBusy then 1 else 0 := by
  obtain ⟨hw, hbusy⟩ := List.getElem?_eq_some_iff.mp h
  have hpos : 0 < s.workers.countP Worker.isBusy :=
    List.countP_pos_iff.mpr ⟨_, List.mem_of_getElem? h, rfl⟩
  have hthis : Worker.isBusy s.workers[w] = true := congrArg Worker.isBusy hbusy
  rw [List.countP_set hw, if_pos hthis, busyCount]
  omega

/-! ### What a step keeps -/

/-- After a step of a busy worker the threads that were run or are pending are the same, and less
work is left. -/
structure Advances (s s' : Crew) : Prop where
  threads : (s'.ran ++ s'.pending).Perm (s.ran ++ s.pending)
  work : s'.work < s.work

theorem advances_running {t : Thread} {left : List Thread}
    (h : s.workers[w]? = some (.busy (t :: left))) : s.Advances (s.step w) := by
  have hcount : (s.step w).busyCount = s.busyCount := by
    have hset := busyCount_set h (.busy left)
    rw [step_of_running h]
    exact Nat.add_right_cancel hset
  have hleft : (t :: (s.workers.set w (.busy left)).flatMap Worker.left).Perm
      (s.workers.flatMap Worker.left) :=
    (List.perm_append_right_iff left).mp
      (List.perm_middle.symm.trans (flatMap_set_perm Worker.left h _))
  have hpending : (t :: (s.step w).pending).Perm s.pending := by
    unfold pending
    rw [hcount, step_of_running h]
    exact hleft.append_right _
  refine ⟨?_, ?_⟩
  · have hran : (s.step w).ran = s.ran ++ [t] := by rw [step_of_running h]
    rw [hran, List.append_assoc]
    exact hpending.append_left _
  · have hlength := hpending.length_eq
    have hdispatcher : (s.step w).dispatcher = s.dispatcher := by rw [step_of_running h]
    rw [List.length_cons] at hlength
    rw [work, work, hcount, hdispatcher]
    omega

/-- A step that runs nothing and takes a request. -/
theorem Advances.of_request {s' : Crew} (hran : s'.ran = s.ran)
    (hpending : s'.pending.Perm s.pending)
    (hless : s'.dispatcher.requests s'.busyCount < s.dispatcher.requests s.busyCount) :
    s.Advances s' where
  threads := by
    rw [hran]
    exact hpending.append_left _
  work := by
    have hlength := hpending.length_eq
    unfold Crew.work
    omega

theorem advances_asking (hm : 0 < s.dispatcher.morsel.toNat)
    (h : s.workers[w]? = some (.busy [])) : s.Advances (s.step w) := by
  obtain ⟨n, hn⟩ : ∃ n, s.busyCount = n + 1 := Nat.exists_eq_add_one.mpr
    (List.countP_pos_iff.mpr ⟨_, List.mem_of_getElem? h, rfl⟩)
  have hset := busyCount_set h (.answered s.launch s.dispatcher.next.1)
  have hleft := flatMap_set_perm Worker.left h (.answered s.launch s.dispatcher.next.1)
  rw [show Worker.left (.busy []) = [] from rfl, List.append_nil] at hleft
  have hstep := step_of_asking h
  -- The threads of a morsel change from those that are handed out to those of the worker.
  rcases Nat.lt_or_ge s.dispatcher.offset.toNat s.dispatcher.grid.toNat with hlt | hge
  · rw [Dispatcher.next_of_lt hlt] at hset hleft hstep
    have hcount : (s.step w).busyCount = n + 1 := by
      rw [hstep, ← hn]
      exact Nat.add_right_cancel hset
    have hpending : (s.step w).pending.Perm s.pending := by
      unfold pending
      rw [hcount, hn, hstep, Dispatcher.handedOut_of_lt hm hlt, List.flatMap_cons,
        ← List.append_assoc]
      exact hleft.append_right _
    refine .of_request (by rw [hstep]) hpending ?_
    rw [hcount, hn, hstep]
    exact Dispatcher.requests_of_lt hm hlt n
  · rw [Dispatcher.next_of_le hge] at hset hleft hstep
    have hcount : (s.step w).busyCount = n := by
      rw [hn] at hset
      rw [hstep]
      exact Nat.add_right_cancel hset
    have hpending : (s.step w).pending.Perm s.pending := by
      unfold pending
      rw [hcount, hn, hstep, Dispatcher.handedOut_of_le hm hge]
      rw [show Worker.left (.answered s.launch none) = [] from rfl, List.append_nil] at hleft
      exact hleft.append_right _
    refine .of_request (by rw [hstep]) hpending ?_
    rw [hcount, hn, hstep]
    exact s.dispatcher.requests_of_le n

theorem advances {left : List Thread} (hm : 0 < s.dispatcher.morsel.toNat)
    (h : s.workers[w]? = some (.busy left)) : s.Advances (s.step w) := by
  cases left with
  | nil => exact advances_asking hm h
  | cons t left => exact advances_running h

/-! ## Schedules -/

/-- A worker that is busy after a step was so before. -/
theorem busy_of_step {v : Nat} {left : List Thread}
    (h : (s.step w).workers[v]? = some (.busy left)) :
    ∃ before, s.workers[v]? = some (.busy before) := by
  by_cases hidle : ∀ left, s.workers[w]? ≠ some (.busy left)
  · rw [step_of_idle hidle] at h
    exact ⟨left, h⟩
  · obtain ⟨before, hbusy⟩ : ∃ before, s.workers[w]? = some (.busy before) := by
      simpa using hidle
    by_cases hv : w = v
    · exact ⟨before, hv ▸ hbusy⟩
    · refine ⟨left, ?_⟩
      cases before with
      | nil => rwa [step_of_asking hbusy, List.getElem?_set_ne hv] at h
      | cons t before => rwa [step_of_running hbusy, List.getElem?_set_ne hv] at h

/-- What every schedule keeps: `threads` are those that were run or are pending. -/
structure Sound (s : Crew) (threads : List Thread) : Prop where
  morsel : 0 < s.dispatcher.morsel.toNat
  threads : (s.ran ++ s.pending).Perm threads

namespace Sound

variable {threads : List Thread}

theorem step (h : s.Sound threads) (w : Nat) :
    (s.step w).Sound threads ∧ (s.step w).work ≤ s.work := by
  by_cases hidle : ∀ left, s.workers[w]? ≠ some (.busy left)
  · rw [step_of_idle hidle]
    exact ⟨h, Nat.le_refl _⟩
  · obtain ⟨left, hbusy⟩ : ∃ left, s.workers[w]? = some (.busy left) := by simpa using hidle
    have hadvances := advances h.morsel hbusy
    refine ⟨⟨?_, hadvances.threads.trans h.threads⟩, Nat.le_of_lt hadvances.work⟩
    cases left with
    | nil =>
      rw [step_of_asking hbusy]
      exact h.morsel
    | cons t left =>
      rw [step_of_running hbusy]
      exact h.morsel

theorem run (h : s.Sound threads) (schedule : List Nat) : (s.run schedule).Sound threads := by
  induction schedule generalizing s with
  | nil => exact h
  | cons w schedule ih => exact ih (h.step w).1

/-- A worker that is still busy has done a piece of the work with each of its steps. -/
theorem busy_of_run (h : s.Sound threads) (schedule : List Nat) {v : Nat} {left : List Thread}
    (hbusy : (s.run schedule).workers[v]? = some (.busy left)) :
    (∃ before, s.workers[v]? = some (.busy before)) ∧
      schedule.count v + (s.run schedule).work ≤ s.work := by
  induction schedule generalizing s with
  | nil => exact ⟨⟨left, hbusy⟩, by rw [List.count_nil, Nat.zero_add]; exact Nat.le_refl _⟩
  | cons w schedule ih =>
    obtain ⟨hsound, hle⟩ := h.step w
    obtain ⟨⟨before, hbefore⟩, hwork⟩ := ih hsound hbusy
    obtain ⟨earlier, hearlier⟩ := busy_of_step hbefore
    refine ⟨⟨earlier, hearlier⟩, ?_⟩
    show (w :: schedule).count v + ((s.step w).run schedule).work ≤ s.work
    rw [List.count_cons]
    by_cases hv : w = v
    · have hless := (advances h.morsel (hv ▸ hearlier)).work
      subst hv
      rw [if_pos (beq_self_eq_true w)]
      omega
    · rw [if_neg (by simpa using hv)]
      omega

/-- When every worker has had as many steps as there is work, all have been refused. -/
theorem finished (h : s.Sound threads) {schedule : List Nat}
    (hcount : ∀ v < s.workers.length, s.work ≤ schedule.count v) : (s.run schedule).Finished := by
  intro worker hmem
  obtain ⟨v, hv⟩ := List.mem_iff_getElem?.mp hmem
  cases worker with
  | refused => rfl
  | busy left =>
    obtain ⟨⟨before, hbefore⟩, hle⟩ := h.busy_of_run schedule hv
    have hsteps := hcount v (List.getElem?_eq_some_iff.mp hbefore).1
    obtain ⟨n, hn⟩ : ∃ n, (s.run schedule).busyCount = n + 1 := Nat.exists_eq_add_one.mpr
      (List.countP_pos_iff.mpr ⟨_, hmem, rfl⟩)
    have hwork : 0 < (s.run schedule).work := by
      rw [work, hn, Dispatcher.requests]
      omega
    omega

end Sound

/-- Refused workers have nothing left, and nothing is handed out to them. -/
theorem Finished.pending_eq_nil (h : s.Finished) : s.pending = [] := by
  have hcount : s.busyCount = 0 := List.countP_eq_zero.mpr fun worker hmem => by
    rw [h worker hmem]
    exact Bool.false_ne_true
  have hleft : s.workers.flatMap Worker.left = [] :=
    List.flatMap_eq_nil_iff.mpr fun worker hmem => by
      rw [h worker hmem]
      rfl
  rw [pending, hcount, hleft, Dispatcher.handedOut_zero]
  rfl

theorem sound_start (d : Device) (l : Launch) : (start d l).Sound (d.threads l) where
  morsel := Dispatcher.start_pos _ _
  threads := by
    have hleft : (start d l).workers.flatMap Worker.left = [] :=
      List.flatMap_eq_nil_iff.mpr fun worker hmem => by
        rw [List.eq_of_mem_replicate hmem]
        rfl
    have hcount : (start d l).busyCount = d.busyWorkers l.grid := by
      rw [busyCount, start, List.countP_replicate, if_pos (by rfl)]
    have hthreads : d.threads l = (start d l).pending := by
      rw [pending, hleft, hcount, List.nil_append, Device.threads, Dispatcher.morsels_eq]
      rfl
    rw [hthreads]
    exact .refl _

/-- In every schedule on a device that can be built, all workers are refused in the end.  Then the
kernel has been run once for each thread of the grid, and the numbers of these threads are those
below their count, exactly if the offset of the dispatcher has stayed past the grid.  It does so if
it cannot wrap before the last worker is refused. -/
theorem run_invokes {ordinal : UInt16} {workers capacity : Nat} {morsel : UInt64} {d : Device}
    (hd : Device.build ordinal workers morsel capacity = .ok d) {l : Launch} (hblock : l.block ≠ 0)
    (schedule : List Nat) {s : Crew} (hs : (start d l).run schedule = s) :
    ((∀ w < d.busyWorkers l.grid, (start d l).work ≤ schedule.count w) → s.Finished) ∧
    (s.Finished → ((l.InvokedOnce s.ran ∧
      (s.ran.map Thread.global).Perm (List.range (l.grid.toNat * l.block.toNat))) ↔
        d.StaysPast l)) ∧
    (l.grid.toNat + d.busyWorkers l.grid * d.morsel.toNat ≤ UInt64.size → d.StaysPast l) := by
  have hm : 0 < d.morsel.toNat := by
    obtain ⟨hmorsel, rfl⟩ := Device.build_ok hd
    exact hmorsel
  have hsound := (sound_start d l).run schedule
  rw [hs] at hsound
  refine ⟨fun hcount => ?_, fun hdone => ?_, Device.staysPast_of_le hm⟩
  · rw [← hs]
    refine (sound_start d l).finished fun w hw => hcount w ?_
    rwa [start, List.length_replicate] at hw
  · have hran : s.ran.Perm (d.threads l) := by
      have hthreads := hsound.threads
      rwa [hdone.pending_eq_nil, List.append_nil] at hthreads
    rw [← Device.threads_perm_iff hm hblock, Launch.invokedOnce_iff]
    constructor
    · rintro ⟨honce, -⟩
      exact hran.symm.trans honce
    · intro hthreads
      have honce := hran.trans hthreads
      refine ⟨honce, ?_⟩
      have hnumbers := honce.map Thread.global
      rwa [l.map_global_allThreads] at hnumbers

/-! Two workers on five blocks of two threads. -/

def pairSchedule : List Nat := [0, 1, 0, 0, 1, 0, 0, 1, 1, 0, 0, 0, 1, 1, 1, 1, 0]

theorem run_invokes_pair :
    ∃ d, Device.build 0 2 3 1000 = .ok d ∧ ((start d ⟨5, 2⟩).run pairSchedule).Finished ∧
      Launch.InvokedOnce ⟨5, 2⟩ ((start d ⟨5, 2⟩).run pairSchedule).ran ∧
      (((start d ⟨5, 2⟩).run pairSchedule).ran.map Thread.global).Perm (List.range 10) := by
  obtain ⟨d, hd, hdone, hpast⟩ : ∃ d, Device.build 0 2 3 1000 = .ok d ∧
      ((start d ⟨5, 2⟩).run pairSchedule).Finished ∧ d.StaysPast ⟨5, 2⟩ :=
    ⟨_, rfl, by decide, by decide⟩
  have hinvokes := run_invokes hd (l := ⟨5, 2⟩) (by decide) pairSchedule rfl
  exact ⟨d, hd, hdone, (hinvokes.2.1 hdone).mpr hpast⟩

/-- A morsel of half the range of the offset: the offset has wrapped before the second worker is
refused, and this worker is handed the grid again. -/
theorem run_invokes_twice :
    ∃ d, Device.build 0 2 9223372036854775808 Device.maxBytes = .ok d ∧
      ((start d ⟨2, 1⟩).run [0, 1, 0, 0, 0, 0, 0, 0]).Finished ∧
      ((start d ⟨2, 1⟩).run [0, 1, 0, 0, 0, 0, 0, 0]).ran.map Thread.global = [0, 1, 0, 1] ∧
      ¬Launch.InvokedOnce ⟨2, 1⟩ ((start d ⟨2, 1⟩).run [0, 1, 0, 0, 0, 0, 0, 0]).ran := by
  refine ⟨_, rfl, by decide, by decide, fun h => ?_⟩
  exact absurd (h.once 0 0 (by decide) (by decide)) (by decide)

end Crew
end GridOps
