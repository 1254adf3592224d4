import GridOps.Device.Trace
import GridOps.Proofs.Device.Crew

/-!
Launches on a device with one worker.

The one worker takes up the threads of the grid in ascending order of their number.  `Ran` states
what the first of them have done, one after the other, when none of them faulted.  A launch ends
after the last thread or with the first fault: `run_serial` says for both what is left in the memory
and which threads were started.
-/

namespace GridOps

/-! ## Threads by their numbers -/

namespace Launch

variable {l : Launch}

/-- Thread number `n` of the grid. -/
def thread (l : Launch) (n : Nat) : Thread :=
  ⟨l, UInt32.ofNat (n / l.block.toNat), UInt32.ofNat (n % l.block.toNat)⟩

theorem thread_global {t : Thread} (ht : t ∈ l.allThreads) : l.thread t.global = t := by
  obtain ⟨hlaunch, -, hlane⟩ := mem_allThreads.mp ht
  have hlane : t.lane.toNat < l.block.toNat := UInt32.lt_iff_toNat_lt.mp hlane
  have hglobal : t.global = t.lane.toNat + l.block.toNat * t.blockIdx.toNat := by
    rw [Thread.global, hlaunch, Nat.add_comm, Nat.mul_comm]
  have hdiv : t.global / l.block.toNat = t.blockIdx.toNat := by
    rw [hglobal, Nat.add_mul_div_left _ _ (by omega), Nat.div_eq_of_lt hlane, Nat.zero_add]
  have hmod : t.global % l.block.toNat = t.lane.toNat := by
    rw [hglobal, Nat.add_mul_mod_self_left, Nat.mod_eq_of_lt hlane]
  rw [thread, hdiv, hmod, UInt32.ofNat_toNat, UInt32.ofNat_toNat, ← hlaunch]

/-- The threads of the grid are those with its numbers. -/
theorem allThreads_eq (l : Launch) : l.allThreads = (List.range l.threads).map l.thread := by
  rw [← l.map_global_allThreads, List.map_map]
  have hid : l.allThreads.map (l.thread ∘ Thread.global) = l.allThreads.map id :=
    List.map_congr_left fun t ht => thread_global ht
  rw [hid, List.map_id]

theorem global_thread {n : Nat} (hn : n < l.threads) : (l.thread n).global = n := by
  have hmem : n ∈ l.allThreads.map Thread.global := by
    rw [l.map_global_allThreads]
    exact List.mem_range.mpr hn
  obtain ⟨t, ht, rfl⟩ := List.mem_map.mp hmem
  rw [thread_global ht]

end Launch

/-! ## One thread after the other -/

/-- The first `n` threads of the launch ran in ascending order, and none of them faulted.  They took
the memory from `s` to the memory that is named last. -/
inductive Ran {σ : Type} (kernel : Kernel σ) (l : Launch) (s : σ) : Nat → σ → Prop
  | start : Ran kernel l s 0 s
  | next {n : Nat} {s₁ s₂ : σ} (before : Ran kernel l s n s₁)
      (thread : kernel (l.thread n) s₁ = .ok () s₂) : Ran kernel l s (n + 1) s₂

/-- The kernel that also lists the numbers of the threads in the order in which they are started. -/
def Kernel.listed {σ : Type} (kernel : Kernel σ) : Kernel (List Nat × σ) := fun t => do
  modify fun (started, s) => (started ++ [t.global], s)
  onSecond (kernel t)

section Serial

variable {σ : Type} {kernel : Kernel σ} {l : Launch} {s s' before after : σ} {fault : Fault}
  {n g : Nat}

/-- Either the first threads all run, or there is a first one that faults. -/
theorem ran_or_faults (kernel : Kernel σ) (l : Launch) (s : σ) (n : Nat) :
    (∃ s', Ran kernel l s n s') ∨ ∃ g < n, ∃ before fault after, Ran kernel l s g before ∧
      kernel (l.thread g) before = .error fault after := by
  induction n with
  | zero => exact .inl ⟨s, .start⟩
  | succ n ih =>
    rcases ih with ⟨s', hran⟩ | ⟨g, hg, hfault⟩
    · cases hn : kernel (l.thread n) s' with
      | ok _ s'' => exact .inl ⟨s'', hran.next hn⟩
      | error fault after => exact .inr ⟨n, Nat.lt_succ_self n, s', fault, after, hran, hn⟩
    · exact .inr ⟨g, Nat.lt_succ_of_lt hg, hfault⟩

theorem forM_append_of_ok {α : Type} {f : α → EStateM Fault σ Unit} {xs ys : List α}
    (h : xs.forM f s = .ok () s') : (xs ++ ys).forM f s = ys.forM f s' := by
  induction xs generalizing s with
  | nil =>
    cases h
    rfl
  | cons x rest ih =>
    change EStateM.bind (f x) (fun _ => rest.forM f) s = _ at h
    show EStateM.bind (f x) (fun _ => (rest ++ ys).forM f) s = _
    unfold EStateM.bind at h ⊢
    cases hx : f x s with
    | ok _ s₁ =>
      rw [hx] at h
      exact ih h
    | error fault s₁ =>
      rw [hx] at h
      cases h

theorem Ran.forM (h : Ran kernel l s n s') :
    ((List.range n).map l.thread).forM kernel s = .ok () s' := by
  induction h with
  | start => rfl
  | @next n s₁ s₂ _ hthread ih =>
    rw [List.range_succ, List.map_append, forM_append_of_ok ih]
    show EStateM.bind (kernel (l.thread n)) (fun _ => pure ()) s₁ = _
    rw [EStateM.bind, hthread]
    rfl

/-- The threads behind one that faults are not run. -/
theorem Ran.forM_fault (h : Ran kernel l s g before)
    (hfault : kernel (l.thread g) before = .error fault after) (hg : g < n) :
    ((List.range n).map l.thread).forM kernel s = .error fault after := by
  obtain ⟨k, rfl⟩ := Nat.exists_eq_add_of_lt hg
  rw [Nat.add_assoc, List.range_add, List.map_append, forM_append_of_ok h.forM,
    List.range_succ_eq_map]
  show EStateM.bind (kernel (l.thread g)) _ before = _
  rw [EStateM.bind, hfault]

theorem listed_apply (kernel : Kernel σ) (t : Thread) (started : List Nat) (s : σ) :
    kernel.listed t (started, s) =
      match kernel t s with
      | .ok _ s' => .ok () (started ++ [t.global], s')
      | .error fault s' => .error fault (started ++ [t.global], s') := rfl

/-- The threads that have run are those that were started. -/
theorem Ran.listed (h : Ran kernel l s n s') (hn : n ≤ l.threads) :
    Ran kernel.listed l ([], s) n (List.range n, s') := by
  induction h with
  | start => exact .start
  | @next n s₁ s₂ _ hthread ih =>
    refine (ih (Nat.le_of_succ_le hn)).next ?_
    rw [listed_apply, hthread, Launch.global_thread hn, List.range_succ]

end Serial

/-! ## Launches -/

namespace Device

variable {σ : Type} {kernel : Kernel σ} {l : Launch} {s s' before after : σ} {fault : Fault}
  {d : Device} {name : String} {g : Nat}

/-- A launch of `kernel` on the memory `s` starts the first `n` threads in ascending order and no
others, leaves the memory `s'` and reports this failure, if any. -/
structure Ends (d : Device) (name : String) (l : Launch) (kernel : Kernel σ) (s : σ) (n : Nat)
    (s' : σ) (error? : Option DeviceError) : Prop where
  outcome : (d.run name l kernel s).1 = ⟨s', error?⟩
  started : (d.run name l kernel.listed ([], s)).1 = ⟨(List.range n, s'), error?⟩

/-- One worker runs the threads of the grid by their numbers. -/
theorem OneWorker.run_eq (hd : d.OneWorker) (hblock : l.block ≠ 0) (hgrid : l.grid ≠ 0)
    (name : String) (kernel : Kernel σ) (s : σ) :
    (d.run name l kernel s).1 =
      match ((List.range l.threads).map l.thread).forM kernel s with
      | .ok _ s' => ⟨s', none⟩
      | .error fault s' => ⟨s', some (.launchFailed name fault)⟩ := by
  unfold run
  rw [if_neg (not_or.mpr ⟨hblock, hgrid⟩), hd.order_threads, l.allThreads_eq]
  dsimp only
  cases ((List.range l.threads).map l.thread).forM kernel s <;> rfl

theorem OneWorker.run_of_ran (hd : d.OneWorker) (hblock : l.block ≠ 0) (hgrid : l.grid ≠ 0)
    (h : Ran kernel l s l.threads s') : (d.run name l kernel s).1 = ⟨s', none⟩ := by
  rw [hd.run_eq hblock hgrid, h.forM]

theorem OneWorker.run_of_fault (hd : d.OneWorker) (hblock : l.block ≠ 0) (hgrid : l.grid ≠ 0)
    (h : Ran kernel l s g before) (hfault : kernel (l.thread g) before = .error fault after)
    (hg : g < l.threads) :
    (d.run name l kernel s).1 = ⟨after, some (.launchFailed name fault)⟩ := by
  rw [hd.run_eq hblock hgrid, h.forM_fault hfault hg]

theorem ends_of_empty (h : l.block = 0 ∨ l.grid = 0) :
    d.Ends name l kernel s 0 s (some (.emptyLaunch name)) where
  outcome := by
    unfold run
    rw [if_pos h]
  started := by
    unfold run
    rw [if_pos h]
    rfl

theorem OneWorker.ends_of_ran (hd : d.OneWorker) (hblock : l.block ≠ 0) (hgrid : l.grid ≠ 0)
    (h : Ran kernel l s l.threads s') : d.Ends name l kernel s l.threads s' none where
  outcome := hd.run_of_ran hblock hgrid h
  started := hd.run_of_ran hblock hgrid (h.listed (Nat.le_refl _))

theorem OneWorker.ends_of_fault (hd : d.OneWorker) (hblock : l.block ≠ 0) (hgrid : l.grid ≠ 0)
    (h : Ran kernel l s g before) (hfault : kernel (l.thread g) before = .error fault after)
    (hg : g < l.threads) :
    d.Ends name l kernel s (g + 1) after (some (.launchFailed name fault)) where
  outcome := hd.run_of_fault hblock hgrid h hfault hg
  started := by
    refine hd.run_of_fault hblock hgrid (h.listed (Nat.le_of_lt hg)) ?_ hg
    rw [listed_apply, hfault, Launch.global_thread hg, List.range_succ]

/-- A launch on one worker.  Without blocks or threads it is refused and starts nothing.  Otherwise
either no thread faults in its turn, and all of them are run, or there is a first thread that
faults.  Then the launch fails with the kernel's name and the text of that fault.  What this thread
and those before it did stays, and no thread behind it is started. -/
theorem run_serial (hd : d.OneWorker) (name : String) (l : Launch) (kernel : Kernel σ) (s : σ) :
    (l.block = 0 ∨ l.grid = 0 → d.Ends name l kernel s 0 s (some (.emptyLaunch name)) ∧
      (DeviceError.emptyLaunch name).kind = .invalidArgument) ∧
    (l.block ≠ 0 → l.grid ≠ 0 →
      (∀ s', Ran kernel l s l.threads s' → d.Ends name l kernel s l.threads s' none) ∧
      (∀ g < l.threads, ∀ before fault after, Ran kernel l s g before →
        kernel (l.thread g) before = .error fault after →
        d.Ends name l kernel s (g + 1) after (some (.launchFailed name fault)) ∧
        (DeviceError.launchFailed name fault).kind = .launchFailed ∧
        (DeviceError.launchFailed name fault).message =
          s!"Kernel '{name}' failed with: {fault.text}") ∧
      ((∃ s', Ran kernel l s l.threads s') ∨
        ∃ g < l.threads, ∃ before fault after, Ran kernel l s g before ∧
          kernel (l.thread g) before = .error fault after)) ∧
    (∀ text, (Fault.message text).text = text) ∧ Fault.silent.text = "unknown panic" := by
  refine ⟨fun hempty => ⟨ends_of_empty hempty, rfl⟩, fun hblock hgrid => ⟨?_, ?_, ?_⟩,
    fun _ => rfl, rfl⟩
  · intro s' hran
    exact hd.ends_of_ran hblock hgrid hran
  · intro g hg before fault after hran hfault
    exact ⟨hd.ends_of_fault hblock hgrid hran hfault hg, rfl, rfl⟩
  · exact ran_or_faults kernel l s l.threads

/-- Thread 1 of four writes outside a buffer of two items, and the two behind it are not started. -/
theorem run_serial_sample :
    (Device.forwards 0).Ends "visit" ⟨2, 2⟩ (Trace.kernel ⟨none, .silent, #[0, 7, 1]⟩)
      ⟨0, #[0, 0, 0, 0], #[0, 0]⟩ 2 ⟨2, #[4, 0, 0, 0], #[1, 0]⟩
      (some (.launchFailed "visit" (.writeOutOfBounds 7 2))) := by
  have hserial := run_serial (forwards_oneWorker 0) "visit" ⟨2, 2⟩
    (Trace.kernel ⟨none, .silent, #[0, 7, 1]⟩) ⟨0, #[0, 0, 0, 0], #[0, 0]⟩
  have hran : Ran (Trace.kernel ⟨none, .silent, #[0, 7, 1]⟩) ⟨2, 2⟩
      ⟨0, #[0, 0, 0, 0], #[0, 0]⟩ 1 ⟨1, #[4, 0, 0, 0], #[1, 0]⟩ := Ran.start.next rfl
  exact ((hserial.2.1 (by decide) (by decide)).2.1 1 (by decide) _ (.writeOutOfBounds 7 2) _ hran
    rfl).1

/-- A launch without blocks does not succeed, although no thread faults. -/
theorem run_without_blocks :
    ∃ d, Device.build 0 1 4 Device.maxBytes = .ok d ∧ d.OneWorker ∧
      Ran (fun _ => pure () : Kernel Unit) ⟨0, 1⟩ () (Launch.threads ⟨0, 1⟩) () ∧
      (d.run "visit" ⟨0, 1⟩ (fun _ => pure () : Kernel Unit) ()).1.error? =
        some (.emptyLaunch "visit") :=
  ⟨_, rfl, ⟨rfl, fun _ _ => rfl⟩, Ran.start, rfl⟩

end Device
end GridOps
