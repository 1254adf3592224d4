import GridOps.Proofs.Device.Accounting
import GridOps.Proofs.Device.Geometry

/-!
The order in which a launch runs its threads, and what a launch of independent rows does.

The grid's blocks are handed out without gap or overlap, so on one worker the threads run in
ascending order of their number (`OneWorker.order_threads`).  `RunsAll` states of any device that
each launch runs every thread once.  The operators launch one thread per row; `run_rows` says what
such a launch leaves behind as a fold over the rows, in the order in which they were taken up.
-/

namespace GridOps

/-! ## Devices -/

namespace Device

/-- A device that can be built has morsels of some blocks and runs threads as they are handed
out. -/
theorem build_ok {ordinal : UInt16} {workers capacity : Nat} {morsel : UInt64} {d : Device}
    (h : build ordinal workers morsel capacity = .ok d) :
    0 < morsel.toNat ∧ d =
      ⟨ordinal, workers, morsel, capacity, 0, 0, fun _ threads => threads⟩ := by
  unfold build at h
  split at h
  · cases h
  · rename_i hmorsel
    cases h
    exact ⟨Nat.pos_of_ne_zero fun h => hmorsel (UInt64.toNat.inj h), rfl⟩

/-- Every launch runs each thread of its grid once, in an order of the device's own. -/
def RunsAll (d : Device) : Prop :=
  ∀ (n : Nat) (l : Launch), (d.order n (d.threads l)).Perm l.allThreads

/-- The device has one worker, which runs the threads as they are handed out. -/
structure OneWorker (d : Device) : Prop where
  workers : d.workers = 1
  order : ∀ (n : Nat) (threads : List Thread), d.order n threads = threads

/-- A single busy worker runs the grid block by block. -/
theorem threads_of_busyWorkers {d : Device} {l : Launch} (h : d.busyWorkers l.grid = 1) :
    d.threads l = l.allThreads := by
  rw [threads, h, ← List.flatMap_assoc, Dispatcher.morsels_one_worker]
  rfl

theorem threads_one_worker {d : Device} (h : d.workers = 1) (l : Launch) :
    d.threads l = l.allThreads := by
  refine threads_of_busyWorkers ?_
  rw [busyWorkers, h]
  omega

theorem OneWorker.order_threads {d : Device} (hd : d.OneWorker) (n : Nat) (l : Launch) :
    d.order n (d.threads l) = l.allThreads := by
  rw [hd.order, threads_one_worker hd.workers]

theorem OneWorker.runsAll {d : Device} (hd : d.OneWorker) : d.RunsAll := fun n l => by
  rw [hd.order_threads]

theorem threads_became {d d' : Device} {bytes : Nat} (h : d.Became d' bytes) (l : Launch) :
    d'.threads l = d.threads l := by
  rw [threads, threads, busyWorkers, busyWorkers, h.morsel, h.workers]

theorem RunsAll.became {d d' : Device} {bytes : Nat} (hd : d.RunsAll) (h : d.Became d' bytes) :
    d'.RunsAll := fun n l => by
  rw [h.order, threads_became h]
  exact hd n l

theorem OneWorker.became {d d' : Device} {bytes : Nat} (hd : d.OneWorker)
    (h : d.Became d' bytes) : d'.OneWorker where
  workers := h.workers.trans hd.workers
  order := by
    rw [h.order]
    exact hd.order

/-- A device with one worker that runs the threads in the order in which they are handed out. -/
def forwards (capacity : Nat) : Device := ⟨0, 1, defaultMorsel, capacity, 0, 0, fun _ ts => ts⟩

/-- A device that runs the threads of each launch in the opposite order. -/
def backwards (capacity : Nat) : Device :=
  ⟨0, 1, defaultMorsel, capacity, 0, 0, fun _ ts => ts.reverse⟩

theorem forwards_oneWorker (capacity : Nat) : (forwards capacity).OneWorker :=
  ⟨rfl, fun _ _ => rfl⟩

theorem backwards_runsAll (capacity : Nat) : (backwards capacity).RunsAll := fun _ l => by
  show ((backwards capacity).threads l).reverse.Perm l.allThreads
  rw [threads_one_worker rfl]
  exact List.reverse_perm _

/-! ## Launches over rows -/

/-- The rows below `len` in the order in which the threads of the next launch take them up. -/
def rowOrder (d : Device) (l : Launch) (len : Nat) : List Nat :=
  ((d.order d.launches (d.threads l)).map Thread.global).filter (· < len)

theorem filter_range_lt {n len : Nat} (h : len ≤ n) :
    (List.range n).filter (· < len) = List.range len := by
  obtain ⟨k, rfl⟩ := Nat.exists_eq_add_of_le h
  rw [List.range_add, List.filter_append]
  have hleft : (List.range len).filter (· < len) = List.range len :=
    List.filter_eq_self.mpr fun i hi => by simpa using hi
  have hright : ((List.range k).map (len + ·)).filter (· < len) = [] :=
    List.filter_eq_nil_iff.mpr fun i hi => by
      obtain ⟨j, -, rfl⟩ := List.mem_map.mp hi
      simp
  rw [hleft, hright, List.append_nil]

/-- A list of the first `len` rows as a launch may take them up: each once, and in ascending order
on one worker. -/
structure Orders (d : Device) (len : Nat) (rows : List Nat) : Prop where
  perm : rows.Perm (List.range len)
  ascending : d.OneWorker → rows = List.range len

theorem rowOrder_orders {d : Device} {l : Launch} {len : Nat} (hd : d.RunsAll) (hl : l.Covers len) :
    d.Orders len (d.rowOrder l len) where
  perm := by
    have hperm := ((hd d.launches l).map Thread.global).filter (· < len)
    rwa [l.map_global_allThreads, filter_range_lt hl.le] at hperm
  ascending := by
    intro hone
    rw [rowOrder, hone.order_threads, l.map_global_allThreads, filter_range_lt hl.le]

theorem Orders.lt {d : Device} {len i : Nat} {rows : List Nat} (h : d.Orders len rows)
    (hi : i ∈ rows) : i < len := List.mem_range.mp (h.perm.mem_iff.mp hi)

theorem Orders.of_became {d d' : Device} {bytes len : Nat} {rows : List Nat}
    (h : d'.Orders len rows) (hb : d.Became d' bytes) : d.Orders len rows :=
  ⟨h.perm, fun hone => h.ascending (hone.became hb)⟩

/-- A kernel that never faults and does nothing beyond row `len`, over any list of threads.  `P` is
what keeps it from faulting. -/
theorem forM_rows {σ : Type} {kernel : Kernel σ} {act : Nat → σ → σ} {len : Nat} {P : σ → Prop}
    (hkernel : ∀ t s, P s →
      kernel t s = .ok () (if t.global < len then act t.global s else s))
    (hP : ∀ i s, i < len → P s → P (act i s)) (threads : List Thread) {s : σ} (hs : P s) :
    threads.forM kernel s =
      .ok () (((threads.map Thread.global).filter (· < len)).foldl (fun s i => act i s) s) := by
  induction threads generalizing s with
  | nil => rfl
  | cons t rest ih =>
    change EStateM.bind (kernel t) (fun _ => rest.forM kernel) s = _
    rw [EStateM.bind, hkernel t s hs]
    by_cases ht : t.global < len
    · rw [if_pos ht]
      dsimp only
      rw [ih (hP _ _ ht hs), List.map_cons, List.filter_cons_of_pos (by simpa using ht),
        List.foldl_cons]
    · rw [if_neg ht]
      dsimp only
      rw [ih hs, List.map_cons, List.filter_cons_of_neg (by simpa using ht)]

/-- A launch of such a kernel acts on its rows one after the other and does not fail. -/
theorem run_rows {σ : Type} {d : Device} (name : String) {l : Launch} {kernel : Kernel σ}
    {act : Nat → σ → σ} {len : Nat} {P : σ → Prop} (hl : l.Covers len)
    (hkernel : ∀ t s, P s →
      kernel t s = .ok () (if t.global < len then act t.global s else s))
    (hP : ∀ i s, i < len → P s → P (act i s)) {s : σ} (hs : P s) :
    d.run name l kernel s = (⟨(d.rowOrder l len).foldl (fun s i => act i s) s, none⟩,
      { d with launches := d.launches + 1 }) := by
  unfold run
  rw [if_neg (not_or.mpr ⟨hl.block, hl.grid⟩), forM_rows hkernel hP _ hs]
  rfl

/-- A launch whose threads do nothing beyond row `len` acts on its rows one after the other, up to
the first that it faults on. -/
theorem launch_rows {σ : Type} (name : String) {l : Launch} {kernel : Kernel σ}
    (act : Nat → EStateM Fault σ Unit) {len : Nat} (hl : l.Covers len)
    (hkernel : ∀ t s, kernel t s = if t.global < len then act t.global s else .ok () s) (s : σ)
    (d : Device) :
    DeviceM.launch name l kernel s d =
      match (d.rowOrder l len).forM act s with
      | .ok _ s => .ok s { d with launches := d.launches + 1 }
      | .error fault _ =>
        .error (.launchFailed name fault) { d with launches := d.launches + 1 } := by
  have hrows : ∀ (threads : List Thread) (s : σ), threads.forM kernel s =
      ((threads.map Thread.global).filter (· < len)).forM act s := by
    intro threads
    induction threads with
    | nil => exact fun _ => rfl
    | cons t rest ih =>
      intro s
      change EStateM.bind (kernel t) (fun _ => rest.forM kernel) s = _
      rw [EStateM.bind, hkernel]
      by_cases ht : t.global < len
      · rw [if_pos ht, List.map_cons, List.filter_cons_of_pos (by simpa using ht)]
        show _ = EStateM.bind (act t.global) (fun _ => List.forM _ act) s
        rw [EStateM.bind]
        cases act t.global s with
        | ok _ s => exact ih s
        | error fault s => rfl
      · rw [if_neg ht, List.map_cons, List.filter_cons_of_neg (by simpa using ht)]
        exact ih s
  unfold DeviceM.launch run
  rw [if_neg (not_or.mpr ⟨hl.block, hl.grid⟩), hrows, ← rowOrder]
  cases (d.rowOrder l len).forM act s <;> rfl

/-- A launch that succeeds has kept what each of its threads keeps. -/
theorem launch_keeps {σ : Type} {name : String} {l : Launch} {kernel : Kernel σ} {P : σ → Prop}
    (hkernel : ∀ t s s', P s → kernel t s = .ok () s' → P s') {s s' : σ} {d d' : Device} (hs : P s)
    (h : DeviceM.launch name l kernel s d = .ok s' d') : P s' := by
  have hthreads : ∀ (threads : List Thread) (s : σ), P s →
      ∀ s', threads.forM kernel s = .ok () s' → P s' := by
    intro threads
    induction threads with
    | nil =>
      intro s hs s' h
      cases h
      exact hs
    | cons t rest ih =>
      intro s hs s' h
      change EStateM.bind (kernel t) (fun _ => rest.forM kernel) s = _ at h
      unfold EStateM.bind at h
      split at h
      · rename_i ht
        exact ih _ (hkernel _ _ _ hs ht) s' h
      · cases h
  unfold DeviceM.launch Device.run at h
  split at h <;> rename_i hrun <;> cases h
  split at hrun
  · cases hrun
  · dsimp only at hrun
    split at hrun <;> cases hrun
    rename_i hok
    exact hthreads _ _ hs _ hok

end Device
end GridOps
