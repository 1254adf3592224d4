import GridOps.Proofs.Device.Schedule

/-!
Launches whose threads make their own part of the memory right.

The memory has parts that can be right or not.  A thread that `Settles` the parts of its own makes
these right, does not fault and spoils none that is right already.  So when all threads of a launch
have run, the parts of all of them are right, in whatever order they ran and also if some ran more
than once (`DeviceM.launch_settles`).

The memory is mostly one buffer, whose parts are its cells and which should end as a given list.
`DeviceM.launch_writes` is the rule for such a launch.
-/

namespace GridOps

/-- Whenever the memory has the shape `P`, `m` does not fault, keeps the shape, makes the parts in
`own` right and keeps every part that is right. -/
structure Settles {σ ι : Type} (P : σ → Prop) (Right : ι → σ → Prop) (own : ι → Prop)
    (m : EStateM Fault σ Unit) : Prop where
  run : ∀ s, P s → ∃ s', m s = .ok () s' ∧ P s' ∧ (∀ k, own k → Right k s') ∧
    ∀ k, Right k s → Right k s'

namespace Settles

variable {σ ι α : Type} {P : σ → Prop} {Right : ι → σ → Prop} {own own' : ι → Prop}
  {m m' : EStateM Fault σ Unit}

theorem pure : Settles P Right (fun _ => False) (Pure.pure () : EStateM Fault σ Unit) where
  run := fun s hs => ⟨s, rfl, hs, fun _ => False.elim, fun _ => id⟩

theorem mono (h : Settles P Right own m) (hown : ∀ k, own' k → own k) :
    Settles P Right own' m where
  run := fun s hs => by
    obtain ⟨s', hm, hs', hright, hkeep⟩ := h.run s hs
    exact ⟨s', hm, hs', fun k hk => hright k (hown k hk), hkeep⟩

theorem andThen (h : Settles P Right own m) (h' : Settles P Right own' m') :
    Settles P Right (fun k => own k ∨ own' k) (m >>= fun _ => m') where
  run := fun s hs => by
    obtain ⟨s₁, hm, hs₁, hright, hkeep⟩ := h.run s hs
    obtain ⟨s₂, hm', hs₂, hright', hkeep'⟩ := h'.run s₁ hs₁
    refine ⟨s₂, ?_, hs₂, ?_, fun k hk => hkeep' k (hkeep k hk)⟩
    · show EStateM.bind m (fun _ => m') s = _
      rw [EStateM.bind, hm]
      exact hm'
    · rintro k (hk | hk)
      · exact hkeep' k (hright k hk)
      · exact hright' k hk

/-- A traversal settles what its steps settle. -/
theorem forM {f : α → EStateM Fault σ Unit} {own : α → ι → Prop} (l : List α)
    (h : ∀ a ∈ l, Settles P Right (own a) (f a)) :
    Settles P Right (fun k => ∃ a ∈ l, own a k) (l.forM f) := by
  induction l with
  | nil => exact pure.mono (by simp)
  | cons a rest ih =>
    have hrest := ih fun b hb => h b (List.mem_cons_of_mem a hb)
    exact ((h a List.mem_cons_self).andThen hrest).mono (by simp)

end Settles

namespace Device

/-- Every launch runs the threads of its grid, each at least once, and no others. -/
def RunsGrid (d : Device) : Prop :=
  ∀ (n : Nat) (l : Launch) (t : Thread), t ∈ d.order n (d.threads l) ↔ t ∈ l.allThreads

theorem RunsAll.runsGrid {d : Device} (hd : d.RunsAll) : d.RunsGrid :=
  fun n l _ => (hd n l).mem_iff

theorem RunsGrid.became {d d' : Device} {bytes : Nat} (hd : d.RunsGrid) (h : d.Became d' bytes) :
    d'.RunsGrid := fun n l t => by
  rw [h.order, threads_became h]
  exact hd n l t

end Device

namespace Device

theorem mem_threads (d : Device) (l : Launch) (t : Thread) :
    t ∈ d.threads l ↔ t ∈ l.allThreads := by
  obtain ⟨workers, hworkers⟩ : ∃ workers, d.busyWorkers l.grid = workers + 1 :=
    Nat.exists_eq_add_one.mpr (Nat.le_max_right _ 1)
  rw [threads, Launch.allThreads, ← List.flatMap_assoc, List.mem_flatMap, List.mem_flatMap]
  simp only [hworkers, Dispatcher.mem_morsels, List.mem_range]

/-- A device that changes at most the order of the threads that are handed out runs the whole grid,
whatever the number of its workers and the length of its morsels. -/
theorem runsGrid_of_perm {d : Device}
    (h : ∀ (n : Nat) (threads : List Thread), (d.order n threads).Perm threads) : d.RunsGrid :=
  fun n l t => (h n _).mem_iff.trans (d.mem_threads l t)

end Device

/-- A launch with a thread for each of `len` items has one with the number of each. -/
theorem Launch.Covers.exists_thread {l : Launch} {len i : Nat} (hl : l.Covers len) (hi : i < len) :
    ∃ t ∈ l.allThreads, t.global = i := by
  have hmem : i ∈ l.allThreads.map Thread.global := by
    rw [l.map_global_allThreads, List.mem_range]
    exact Nat.lt_of_lt_of_le hi hl.le
  exact List.mem_map.mp hmem

namespace DeviceM

/-- A launch settles the parts of its items.  Threads beyond the items do nothing. -/
theorem launch_settles {σ ι : Type} {P : σ → Prop} {Right : ι → σ → Prop} {own : Nat → ι → Prop}
    {kernel : Kernel σ} {l : Launch} {len : Nat} {d : Device} (name : String) (hl : l.Covers len)
    (hd : d.RunsGrid)
    (hitem : ∀ t, t.global < len → Settles P Right (own t.global) (kernel t))
    (hrest : ∀ t, len ≤ t.global → kernel t = pure ()) {s : σ} (hs : P s) :
    ∃ s', launch name l kernel s d = .ok s' { d with launches := d.launches + 1 } ∧ P s' ∧
      (∀ i < len, ∀ k, own i k → Right k s') ∧ ∀ k, Right k s → Right k s' := by
  have hthread : ∀ t ∈ d.order d.launches (d.threads l),
      Settles P Right (fun k => t.global < len ∧ own t.global k) (kernel t) := by
    intro t _
    by_cases ht : t.global < len
    · exact (hitem t ht).mono fun k hk => hk.2
    · rw [hrest t (Nat.le_of_not_lt ht)]
      exact Settles.pure.mono fun k hk => ht hk.1
  obtain ⟨s', hrun, hs', hright, hkeep⟩ := (Settles.forM _ hthread).run s hs
  refine ⟨s', ?_, hs', fun i hi k hk => ?_, hkeep⟩
  · unfold launch Device.run
    rw [if_neg (not_or.mpr ⟨hl.block, hl.grid⟩), hrun]
  · obtain ⟨t, ht, rfl⟩ := hl.exists_thread hi
    exact hright k ⟨t, (hd d.launches l t).mpr ht, hi, hk⟩

end DeviceM

/-! ## One buffer -/

/-- On a buffer that should end as `target`, `m` writes the cells in `own` as they should be, and
writes no cell otherwise. -/
def Writes {α : Type} (target : List α) (own : Nat → Prop)
    (m : EStateM Fault (Array α) Unit) : Prop :=
  Settles (fun a => a.size = target.length) (fun k a => a[k]? = target[k]?) own m

section Writes

variable {α : Type} {target : List α}

theorem scatter_writes {i : Nat} {x : α} (hx : target[i]? = some x) :
    Writes target (· = i) (scatter i x) where
  run := fun a ha => by
    obtain ⟨hi, -⟩ := List.getElem?_eq_some_iff.mp hx
    have hsize : i < a.size := by omega
    refine ⟨a.set i x hsize, ?_, ?_, ?_, fun k hk => ?_⟩
    · rw [scatter, dif_pos hsize]
    · rw [Array.size_set]
      exact ha
    · rintro k rfl
      rw [Array.getElem?_set_self, hx]
    · by_cases hki : i = k
      · subst hki
        rw [Array.getElem?_set_self, hx]
      · rw [Array.getElem?_set_ne hsize hki]
        exact hk

/-- Writing a cell does not change how many there are. -/
theorem scatter_size {i : Nat} {x : α} {a a' : Array α} {u : Unit} (h : scatter i x a = .ok u a') :
    a'.size = a.size := by
  unfold scatter at h
  by_cases hi : i < a.size
  · rw [dif_pos hi] at h
    cases h
    exact Array.size_set hi
  · rw [dif_neg hi] at h
    cases h

theorem scatterFrom_writes {xs : List α} {i : Nat}
    (hxs : ∀ j < xs.length, target[i + j]? = xs[j]?) :
    Writes target (fun k => i ≤ k ∧ k < i + xs.length) (scatterFrom xs i) := by
  induction xs generalizing i with
  | nil => exact Settles.pure.mono fun k hk => by simp at hk; omega
  | cons x rest ih =>
    have hfirst : target[i]? = some x := hxs 0 (Nat.succ_pos _)
    have hrest : ∀ j < rest.length, target[i + 1 + j]? = rest[j]? := by
      intro j hj
      have h := hxs (j + 1) (Nat.succ_lt_succ hj)
      rwa [List.getElem?_cons_succ, Nat.add_comm j 1, ← Nat.add_assoc] at h
    refine Settles.mono ((scatter_writes hfirst).andThen (ih hrest)) fun k hk => ?_
    rw [List.length_cons] at hk
    omega

/-- A launch whose items write all cells leaves the target. -/
theorem DeviceM.launch_writes {kernel : Kernel (Array α)} {l : Launch} {len : Nat} {d : Device}
    (name : String) (target : List α) (own : Nat → Nat → Prop) (hl : l.Covers len) (hd : d.RunsGrid)
    (hitem : ∀ t, t.global < len → Writes target (own t.global) (kernel t))
    (hrest : ∀ t, len ≤ t.global → kernel t = pure ())
    (hall : ∀ k < target.length, ∃ i < len, own i k) {a : Array α} (ha : a.size = target.length) :
    launch name l kernel a d = .ok target.toArray { d with launches := d.launches + 1 } := by
  obtain ⟨a', hlaunch, hsize, hright, -⟩ := launch_settles name hl hd hitem hrest ha
  have heq : a'.toList = target := by
    refine List.ext_getElem? fun k => ?_
    rw [Array.getElem?_toList]
    by_cases hk : k < target.length
    · obtain ⟨i, hi, hown⟩ := hall k hk
      exact hright i hi k hown
    · rw [Array.getElem?_eq_none (by omega), List.getElem?_eq_none (by omega)]
  rw [hlaunch, ← heq]

/-- A launch whose threads write one cell each leaves all of them. -/
theorem DeviceM.launch_cells {kernel : Kernel (Array α)} {l : Launch} {d : Device} (name : String)
    (target : List α) (hl : l.Covers target.length) (hd : d.RunsGrid)
    (hitem : ∀ t x, target[t.global]? = some x → kernel t = scatter t.global x)
    (hrest : ∀ t, target.length ≤ t.global → kernel t = pure ()) {a : Array α}
    (ha : a.size = target.length) :
    launch name l kernel a d = .ok target.toArray { d with launches := d.launches + 1 } := by
  refine launch_writes name target (fun i k => k = i) hl hd (fun t ht => ?_) hrest
    (fun k hk => ⟨k, hk, rfl⟩) ha
  have hx : target[t.global]? = some target[t.global] := List.getElem?_eq_getElem ht
  rw [hitem t _ hx]
  exact scatter_writes hx

end Writes

/-! ## A buffer beside other memory -/

section Beside

variable {α σ τ : Type}

theorem onSecond_ok {m : EStateM Fault τ Unit} {p p' : σ × τ} {u : Unit}
    (h : onSecond m p = .ok u p') : ∃ t, m p.2 = .ok () t ∧ p' = (p.1, t) := by
  unfold onSecond at h
  dsimp only at h
  cases hm : m p.2 with
  | ok _ t =>
    rw [hm] at h
    cases h
    exact ⟨t, rfl, rfl⟩
  | error fault t =>
    rw [hm] at h
    cases h

theorem forM_onSecond {f : α → EStateM Fault τ Unit} (l : List α) :
    (l.forM fun x => onSecond (f x)) = (onSecond (l.forM f) : EStateM Fault (σ × τ) Unit) := by
  induction l with
  | nil => rfl
  | cons x rest ih =>
    funext ⟨s, a⟩
    show EStateM.bind (onSecond (f x)) (fun _ => rest.forM fun x => onSecond (f x)) (s, a) =
      onSecond (EStateM.bind (f x) fun _ => rest.forM f) (s, a)
    rw [ih]
    unfold EStateM.bind onSecond
    dsimp only
    cases f x a <;> rfl

/-- Threads that touch the second part of the memory only leave the first as it is. -/
theorem DeviceM.launch_onSecond {kernel : Kernel (σ × τ)} {writer : Kernel τ}
    (hkernel : ∀ t, kernel t = onSecond (writer t)) {name : String} {l : Launch} {a a' : τ}
    {d d' : Device} (h : launch name l writer a d = .ok a' d') (s : σ) :
    launch name l kernel (s, a) d = .ok (s, a') d' := by
  obtain rfl : kernel = fun t => onSecond (writer t) := funext hkernel
  unfold launch Device.run at h ⊢
  rw [forM_onSecond]
  by_cases hempty : l.block = 0 ∨ l.grid = 0
  · rw [if_pos hempty] at h
    cases h
  · rw [if_neg hempty] at h ⊢
    unfold onSecond
    cases hthreads : (d.order d.launches (d.threads l)).forM writer a with
    | ok _ a₁ =>
      rw [hthreads] at h
      cases h
      simp only [hthreads]
    | error fault a₁ =>
      rw [hthreads] at h
      cases h

end Beside

end GridOps
