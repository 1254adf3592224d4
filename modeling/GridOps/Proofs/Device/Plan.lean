import GridOps.Proofs.Device.Schedule

/-!
How an operation ends, as a function of the free memory.

A plan says for every number of free bytes whether an operation returns, with an answer that a view
of its result shows, or with which kind of failure it ends.  `Follows` states that an operation on
a device ends as a plan says.  Its rules go with the ways in which device operations are put
together, as those of `DeviceM.Balanced` do, so that a plan has the shape of its operation with
numbers in the place of data.  `Needs`, `FailsWith` and `Narrows` are facts about plans alone.
-/

namespace GridOps

/-- How an operation ends if so many bytes are free. -/
structure Plan (α : Type) where
  ends : Nat → Except ErrorKind α

namespace Plan

variable {α β : Type}

instance : Monad Plan where
  pure a := ⟨fun _ => .ok a⟩
  bind plan next := ⟨fun free =>
    match plan.ends free with
    | .ok a => (next a).ends free
    | .error kind => .error kind⟩

def fail (kind : ErrorKind) : Plan α := ⟨fun _ => .error kind⟩

def ofExcept {ε : Type} (kind : ε → ErrorKind) (r : Except ε α) : Plan α :=
  ⟨fun _ => r.mapError kind⟩

/-- The plan for the time in which `bytes` more bytes are taken. -/
def hold (bytes : Nat) (plan : Plan α) : Plan α := ⟨fun free => plan.ends (free - bytes)⟩

def reserve (items size : Nat) : Plan Unit := ⟨fun free =>
  if Device.maxBytes < items * size then .error .integerOverflow
  else if free < items * size then .error .outOfMemory
  else .ok ()⟩

def allocate (items size : Nat) : Plan Unit := do
  reserve items size
  if maxHostBytes < items * size then fail .outOfMemory

/-- A grid with a thread for each of `len` items. -/
def launch (len : Nat) (block : UInt32) : Plan Unit :=
  if (UInt32.size - 1) * block.toNat < len then fail .integerOverflow else pure ()

/-- The plan of an operation that has a counter on the device. -/
def withCounter (plan : Plan α) : Plan α := do
  reserve 1 DeviceM.counterBytes
  hold DeviceM.counterBytes plan

section Steps

variable {plan : Plan α} {f : α → Plan β} {free : Nat}

@[simp] theorem ends_pure (a : α) (free : Nat) : (pure a : Plan α).ends free = .ok a := rfl

@[simp] theorem ends_fail (kind : ErrorKind) (free : Nat) :
    (fail kind : Plan α).ends free = .error kind := rfl

@[simp] theorem ends_hold (bytes : Nat) (plan : Plan α) (free : Nat) :
    (hold bytes plan).ends free = plan.ends (free - bytes) := rfl

theorem bind_of_ok {a : α} (h : plan.ends free = .ok a) :
    (plan >>= f).ends free = (f a).ends free := by
  show (match plan.ends free with | .ok a => (f a).ends free | .error kind => .error kind) = _
  rw [h]

theorem bind_of_error {kind : ErrorKind} (h : plan.ends free = .error kind) :
    (plan >>= f).ends free = .error kind := by
  show (match plan.ends free with | .ok a => (f a).ends free | .error kind => .error kind) = _
  rw [h]

theorem bind_ok {b : β} (h : (plan >>= f).ends free = .ok b) :
    ∃ a, plan.ends free = .ok a ∧ (f a).ends free = .ok b := by
  cases hplan : plan.ends free with
  | ok a => exact ⟨a, rfl, (bind_of_ok hplan).symm.trans h⟩
  | error kind =>
    rw [bind_of_error hplan] at h
    cases h

end Steps

/-! ## Memory -/

/-- The plan returns `a` from `bytes` free bytes on, and is out of memory with fewer. -/
def Needs (plan : Plan α) (bytes : Nat) (a : α) : Prop :=
  ∀ free, plan.ends free = if bytes ≤ free then .ok a else .error .outOfMemory

namespace Needs

variable {plan : Plan α} {f : α → Plan β} {bytes more : Nat} {a : α} {b : β}

theorem ok (h : plan.Needs bytes a) {free : Nat} (hfree : bytes ≤ free) :
    plan.ends free = .ok a := by
  rw [h free, if_pos hfree]

theorem error (h : plan.Needs bytes a) {free : Nat} (hfree : free < bytes) :
    plan.ends free = .error .outOfMemory := by
  rw [h free, if_neg (Nat.not_le_of_lt hfree)]

theorem pure (a : α) : (Pure.pure a : Plan α).Needs 0 a := fun _ => (if_pos (Nat.zero_le _)).symm

theorem bind (h : plan.Needs bytes a) (h' : (f a).Needs more b) :
    (plan >>= f).Needs (max bytes more) b := by
  intro free
  by_cases hfree : bytes ≤ free
  · rw [bind_of_ok (h.ok hfree), h' free]
    simp only [Nat.max_le, hfree, true_and]
  · rw [bind_of_error (h.error (by omega)), if_neg (by omega)]

/-- Bytes that are taken and held while the rest goes on. -/
theorem hold (h : plan.Needs bytes a) (h' : (f a).Needs more b) :
    (plan >>= fun a => Plan.hold bytes (f a)).Needs (bytes + more) b := by
  intro free
  by_cases hfree : bytes ≤ free
  · rw [bind_of_ok (h.ok hfree), ends_hold, h' (free - bytes)]
    simp only [Nat.le_sub_iff_add_le' hfree]
  · rw [bind_of_error (h.error (by omega)), if_neg (by omega)]

/-- Of the bytes that the first part takes, `kept` are held while the rest goes on. -/
theorem keep {kept : Nat} (h : plan.Needs bytes a) (hkept : kept ≤ bytes)
    (h' : (f a).Needs more b) :
    (plan >>= fun a => Plan.hold kept (f a)).Needs (max bytes (kept + more)) b := by
  intro free
  by_cases hfree : bytes ≤ free
  · rw [bind_of_ok (h.ok hfree), ends_hold, h' (free - kept)]
    simp only [Nat.le_sub_iff_add_le' (Nat.le_trans hkept hfree), Nat.max_le, hfree, true_and]
  · rw [bind_of_error (h.error (by omega)), if_neg (by omega)]

theorem of_pos {c : Prop} [Decidable c] {plan' : Plan α} (hc : c) (h : plan.Needs bytes a) :
    (if c then plan else plan').Needs bytes a := by rwa [if_pos hc]

theorem of_neg {c : Prop} [Decidable c] {plan' : Plan α} (hc : ¬c) (h : plan.Needs bytes a) :
    (if c then plan' else plan).Needs bytes a := by rwa [if_neg hc]

theorem of_eq (h : plan.Needs bytes a) (heq : bytes = more) : plan.Needs more a := heq ▸ h

end Needs

theorem reserve_needs {items size : Nat} (h : items * size ≤ Device.maxBytes) :
    (reserve items size).Needs (items * size) () := by
  intro free
  by_cases hfree : items * size ≤ free
  · simp [reserve, Nat.not_lt_of_le h, hfree, Nat.not_lt_of_le hfree]
  · simp [reserve, Nat.not_lt_of_le h, hfree, Nat.lt_of_not_le hfree]

theorem allocate_needs {items size : Nat} (h : items * size ≤ maxHostBytes) :
    (allocate items size).Needs (items * size) () := by
  have hmax : maxHostBytes ≤ Device.maxBytes := by decide
  have hneeds := reserve_needs (Nat.le_trans h hmax)
  intro free
  unfold allocate
  rw [if_neg (Nat.not_lt_of_le h), hneeds.bind (.pure ()) free, Nat.max_zero]

theorem launch_needs {len : Nat} {block : UInt32} (h : len ≤ (UInt32.size - 1) * block.toNat) :
    (launch len block).Needs 0 () := by
  rw [launch, if_neg (Nat.not_lt_of_le h)]
  exact .pure ()

theorem ofExcept_needs {ε : Type} {kind : ε → ErrorKind} {r : Except ε α} {a : α}
    (h : r = .ok a) : (ofExcept kind r).Needs 0 a := by
  subst h
  exact .pure a

theorem withCounter_needs {plan : Plan α} {bytes : Nat} {a : α} (h : plan.Needs bytes a) :
    plan.withCounter.Needs (DeviceM.counterBytes + bytes) a := by
  have hcounter : (reserve 1 DeviceM.counterBytes).Needs DeviceM.counterBytes () :=
    reserve_needs (by decide)
  exact hcounter.hold h

/-! ## What a plan that returns shows -/

theorem reserve_ok {items size free : Nat} (h : (reserve items size).ends free = .ok ()) :
    items * size ≤ Device.maxBytes ∧ items * size ≤ free := by
  unfold reserve at h
  dsimp only at h
  split at h
  · cases h
  · split at h
    · cases h
    · omega

theorem allocate_ok {items size free : Nat} (h : (allocate items size).ends free = .ok ()) :
    items * size ≤ maxHostBytes ∧ items * size ≤ free := by
  obtain ⟨_, hreserve, h⟩ := bind_ok h
  have hbytes := reserve_ok hreserve
  by_cases hhost : maxHostBytes < items * size
  · rw [if_pos hhost] at h
    cases h
  · omega

theorem withCounter_ok {plan : Plan α} {free : Nat} {a : α}
    (h : plan.withCounter.ends free = .ok a) : plan.ends (free - DeviceM.counterBytes) = .ok a := by
  obtain ⟨_, -, h⟩ := bind_ok h
  exact h

theorem launch_ok {len free : Nat} {block : UInt32} (h : (launch len block).ends free = .ok ()) :
    len ≤ (UInt32.size - 1) * block.toNat := by
  by_cases hlen : (UInt32.size - 1) * block.toNat < len
  · rw [launch, if_pos hlen] at h
    cases h
  · omega

theorem ofExcept_ok {ε : Type} {kind : ε → ErrorKind} {r : Except ε α} {free : Nat} {a : α}
    (h : (ofExcept kind r).ends free = .ok a) : r = .ok a := by
  cases r with
  | ok _ =>
    cases h
    rfl
  | error _ => cases h

/-! ## Kinds of failures -/

/-- Every failure of the plan is of a kind with the property `P`. -/
def FailsWith (P : ErrorKind → Prop) (plan : Plan α) : Prop :=
  ∀ free kind, plan.ends free = .error kind → P kind

namespace FailsWith

variable {P : ErrorKind → Prop} {plan : Plan α} {next : α → Plan β}

theorem pure (a : α) : FailsWith P (Pure.pure a : Plan α) := by
  intro free kind h
  cases h

theorem fail {kind : ErrorKind} (h : P kind) : FailsWith P (Plan.fail kind : Plan α) := by
  intro free kind' h'
  cases h'
  exact h

theorem bind (h : FailsWith P plan) (h' : ∀ a, FailsWith P (next a)) :
    FailsWith P (plan >>= next) := by
  intro free kind hkind
  cases hplan : plan.ends free with
  | ok a => exact h' a free kind ((bind_of_ok hplan).symm.trans hkind)
  | error kind' =>
    rw [bind_of_error hplan] at hkind
    cases hkind
    exact h free kind hplan

theorem hold (bytes : Nat) (h : FailsWith P plan) : FailsWith P (Plan.hold bytes plan) :=
  fun free => h (free - bytes)

theorem mono {Q : ErrorKind → Prop} (h : FailsWith P plan) (hPQ : ∀ kind, P kind → Q kind) :
    FailsWith Q plan := fun free kind hkind => hPQ kind (h free kind hkind)

end FailsWith

/-- A kind of failure that comes from a size: of a buffer, of a number or of a grid. -/
def OfSize (kind : ErrorKind) : Prop := kind = .integerOverflow ∨ kind = .outOfMemory

theorem reserve_failsWith (items size : Nat) : FailsWith OfSize (reserve items size) := by
  intro free kind h
  unfold reserve at h
  dsimp only at h
  split at h
  · cases h
    exact Or.inl rfl
  · split at h
    · cases h
      exact Or.inr rfl
    · cases h

theorem allocate_failsWith (items size : Nat) : FailsWith OfSize (allocate items size) := by
  refine (reserve_failsWith items size).bind fun _ => ?_
  split
  · exact .fail (Or.inr rfl)
  · exact .pure ()

theorem withCounter_failsWith {P : ErrorKind → Prop} (hP : ∀ kind, OfSize kind → P kind)
    {plan : Plan α} (h : FailsWith P plan) : FailsWith P plan.withCounter :=
  ((reserve_failsWith _ _).mono hP).bind fun _ => h.hold _

theorem launch_failsWith (len : Nat) (block : UInt32) : FailsWith OfSize (launch len block) := by
  unfold launch
  split
  · exact .fail (Or.inl rfl)
  · exact .pure ()

/-! ## Plans over smaller items -/

theorem ends_allocate (items size free : Nat) :
    (allocate items size).ends free =
      if Device.maxBytes < items * size then .error .integerOverflow
      else if free < items * size ∨ maxHostBytes < items * size then .error .outOfMemory
      else .ok () := by
  unfold allocate
  by_cases hbytes : Device.maxBytes < items * size
  · rw [if_pos hbytes]
    exact bind_of_error (if_pos hbytes)
  · rw [if_neg hbytes]
    by_cases hfree : free < items * size
    · rw [if_pos (Or.inl hfree)]
      exact bind_of_error ((if_neg hbytes).trans (if_pos hfree))
    · rw [bind_of_ok ((if_neg hbytes).trans (if_neg hfree))]
      by_cases hhost : maxHostBytes < items * size
      · rw [if_pos hhost, if_pos (Or.inr hhost)]
        rfl
      · rw [if_neg hhost, if_neg (not_or.mpr ⟨hfree, hhost⟩)]
        rfl

/-- With as much free memory or more, `narrow` ends as `wide` does, unless `wide` is out of memory.
Where a size of `wide` overflows, `narrow` may be out of memory. -/
def Narrows (narrow wide : Plan α) : Prop :=
  ∀ free free', free' ≤ free → wide.ends free' = .error .outOfMemory ∨
    narrow.ends free = wide.ends free' ∨
    (wide.ends free' = .error .integerOverflow ∧ narrow.ends free = .error .outOfMemory)

namespace Narrows

variable {narrow wide : Plan α} {f f' : α → Plan β}

theorem pure (a : α) : Narrows (Pure.pure a) (Pure.pure a) := fun _ _ _ => .inr (.inl rfl)

theorem fail (kind : ErrorKind) : Narrows (Plan.fail kind : Plan α) (Plan.fail kind) :=
  fun _ _ _ => .inr (.inl rfl)

theorem ofExcept {ε : Type} (kind : ε → ErrorKind) (r : Except ε α) :
    Narrows (Plan.ofExcept kind r) (Plan.ofExcept kind r) := fun _ _ _ => .inr (.inl rfl)

theorem launch (len : Nat) (block : UInt32) :
    Narrows (Plan.launch len block) (Plan.launch len block) := by
  unfold Plan.launch
  split
  · exact .fail _
  · exact .pure _

theorem reserve (items size : Nat) :
    Narrows (Plan.reserve items size) (Plan.reserve items size) := by
  intro free free' hle
  unfold Plan.reserve
  dsimp only
  split
  · exact .inr (.inl rfl)
  · by_cases hfree : free' < items * size
    · exact .inl (if_pos hfree)
    · rw [if_neg hfree, if_neg (by omega)]
      exact .inr (.inl rfl)

/-- Items of up to half the size.  If the wide ones have too many bytes for a word, the narrow ones
have too many for the host. -/
theorem allocate {size size' : Nat} (items : Nat) (hle : size ≤ size')
    (hdouble : size' ≤ 2 * size) :
    Narrows (Plan.allocate items size) (Plan.allocate items size') := by
  intro free free' hfree
  have hmax : Device.maxBytes = 18446744073709551615 := rfl
  have hhost : maxHostBytes = 9223372036854775807 := rfl
  have hbytes : items * size ≤ items * size' := Nat.mul_le_mul_left _ hle
  have htwice : items * size' ≤ 2 * (items * size) :=
    Nat.mul_left_comm 2 items size ▸ Nat.mul_le_mul_left _ hdouble
  rw [ends_allocate, ends_allocate]
  by_cases hwide : Device.maxBytes < items * size'
  · rw [if_pos hwide]
    by_cases hnarrow : Device.maxBytes < items * size
    · exact .inr (.inl (if_pos hnarrow))
    · rw [if_neg hnarrow, if_pos (Or.inr (by omega))]
      exact .inr (.inr ⟨rfl, rfl⟩)
  · rw [if_neg hwide]
    by_cases hroom : free' < items * size' ∨ maxHostBytes < items * size'
    · exact .inl (if_pos hroom)
    · rw [if_neg hroom, if_neg (by omega), if_neg (by omega)]
      exact .inr (.inl rfl)

theorem bind (h : Narrows narrow wide) (h' : ∀ a, Narrows (f a) (f' a)) :
    Narrows (narrow >>= f) (wide >>= f') := by
  intro free free' hle
  rcases h free free' hle with hwide | hsame | ⟨hwide, hnarrow⟩
  · exact .inl (bind_of_error hwide)
  · cases hends : wide.ends free' with
    | error kind =>
      exact .inr (.inl ((bind_of_error (hsame.trans hends)).trans (bind_of_error hends).symm))
    | ok a =>
      rw [bind_of_ok hends, bind_of_ok (hsame.trans hends)]
      exact h' a free free' hle
  · exact .inr (.inr ⟨bind_of_error hwide, bind_of_error hnarrow⟩)

theorem hold {bytes bytes' : Nat} (hbytes : bytes ≤ bytes') (h : Narrows narrow wide) :
    Narrows (Plan.hold bytes narrow) (Plan.hold bytes' wide) := fun free free' hle =>
  h (free - bytes) (free' - bytes') (by omega)

theorem withCounter (h : Narrows narrow wide) : Narrows narrow.withCounter wide.withCounter :=
  (Narrows.reserve _ _).bind fun _ => .hold (Nat.le_refl _) h

end Narrows

end Plan

/-! ## Operations that follow a plan -/

theorem Device.Became.available {d d' : Device} {bytes : Nat} (h : d.Became d' bytes) :
    d'.available = d.available - bytes := by
  rw [Device.available, Device.available, h.used, h.capacity]
  omega

namespace DeviceM

variable {ε ε' α β γ δ : Type}

/-- How an operation ends: with a view of its answer, or with a kind of failure. -/
def ending (kind : ε → ErrorKind) (view : α → β) (m : DeviceM ε α) (d : Device) :
    Except ErrorKind β :=
  match m d with
  | .ok a _ => .ok (view a)
  | .error e _ => .error (kind e)

section Ending

variable {kind : ε → ErrorKind} {view : α → β} {m : DeviceM ε α} {d d' : Device}

theorem ending_of_ok {a : α} (h : m d = .ok a d') : m.ending kind view d = .ok (view a) := by
  rw [ending, h]

theorem ending_of_error {e : ε} (h : m d = .error e d') :
    m.ending kind view d = .error (kind e) := by
  rw [ending, h]

theorem ending_ok {b : β} (h : m.ending kind view d = .ok b) :
    ∃ a d', m d = .ok a d' ∧ view a = b := by
  unfold ending at h
  split at h
  · rename_i a d' hm
    cases h
    exact ⟨a, d', hm, rfl⟩
  · cases h

theorem ending_error {k : ErrorKind} (h : m.ending kind view d = .error k) :
    ∃ e d', m d = .error e d' ∧ kind e = k := by
  unfold ending at h
  split at h
  · cases h
  · rename_i e d' hm
    cases h
    exact ⟨e, d', hm, rfl⟩

end Ending

/-- On the device `d`, the operation ends as the plan says for its free bytes. -/
def Follows (kind : ε → ErrorKind) (view : α → β) (m : DeviceM ε α) (plan : Plan β) (d : Device) :
    Prop := m.ending kind view d = plan.ends d.available

namespace Follows

variable {kind : ε → ErrorKind} {d : Device}

theorem pure (view : α → β) (a : α) :
    Follows kind view (Pure.pure a : DeviceM ε α) (Pure.pure (view a)) d := rfl

theorem fail (view : α → β) (e : ε) :
    Follows kind view (DeviceM.fail e : DeviceM ε α) (.fail (kind e)) d := rfl

theorem ofExcept (r : Except ε α) :
    Follows kind id (DeviceM.ofExcept r) (.ofExcept kind r) d := by
  cases r <;> rfl

variable {m : DeviceM ε α} {f : α → DeviceM ε β} {view : α → γ} {view' : β → δ} {plan : Plan γ}
  {next : γ → Plan δ}

/-- An operation that returns on this device follows the plan that returns. -/
theorem of_ok {a : α} {d' : Device} (h : m d = .ok a d') :
    Follows kind view m (Pure.pure (view a)) d := ending_of_ok h

/-- What follows an operation that returns on this device and takes nothing. -/
theorem ok_bind {a : α} {d' : Device} {plan : Plan δ} (h : m d = .ok a d') (hb : d.Became d' 0)
    (hf : Follows kind view' (f a) plan d') : Follows kind view' (m >>= f) plan d := by
  have hfree := hb.available
  rw [Nat.sub_zero] at hfree
  unfold Follows ending at hf ⊢
  rw [bind_of_ok h, hf, hfree]

theorem mapError {k : ε' → ErrorKind} {g : ε → ε'} (h : Follows kind view m plan d)
    (hkind : ∀ e, k (g e) = kind e) :
    Follows k view (DeviceM.mapError g m) plan d := by
  unfold Follows at h ⊢
  rw [← h]
  unfold ending DeviceM.mapError
  cases m d with
  | ok a d' => rfl
  | error e d' => exact congrArg Except.error (hkind e)

/-- What follows an operation ends as the plan says for the bytes that were free before it. -/
theorem bind_of (h : Follows kind view m plan d)
    (hf : ∀ a d', m d = .ok a d' → (f a).ending kind view' d' = (next (view a)).ends d.available) :
    Follows kind view' (m >>= f) (plan >>= next) d := by
  cases hd : m d with
  | ok a d' =>
    have hplan := Plan.bind_of_ok (f := next) (h.symm.trans (ending_of_ok hd))
    have hrest := hf a d' hd
    unfold Follows ending at hrest ⊢
    rw [bind_of_ok hd, hrest, hplan]
  | error e d' =>
    have hplan := Plan.bind_of_error (f := next) (h.symm.trans (ending_of_error hd))
    exact (ending_of_error (bind_of_error hd)).trans hplan.symm

/-- What follows an operation that takes bytes has so many fewer. -/
theorem take {bytes : Nat} (h : Follows kind view m plan d) (hm : Balanced m fun _ => bytes)
    (hf : ∀ a d', m d = .ok a d' → d.Became d' bytes →
      Follows kind view' (f a) (next (view a)) d') :
    Follows kind view' (m >>= f) (plan >>= fun c => .hold bytes (next c)) d := by
  refine h.bind_of fun a d' hd => ?_
  have hb := hm.ok hd
  rw [Plan.ends_hold, ← hb.available]
  exact hf a d' hd hb

theorem bind (h : Follows kind view m plan d) (hm : Balanced m fun _ => 0)
    (hf : ∀ a d', m d = .ok a d' → d.Became d' 0 →
      Follows kind view' (f a) (next (view a)) d') :
    Follows kind view' (m >>= f) (plan >>= next) d := h.take hm hf

theorem map {g : α → β} {g' : γ → δ} (h : Follows kind view m plan d)
    (hview : ∀ a, view' (g a) = g' (view a)) :
    Follows kind view' (m >>= fun a => Pure.pure (g a)) (plan >>= fun b => Pure.pure (g' b)) d :=
  h.bind_of fun a _ _ => congrArg Except.ok (hview a)

/-- What follows returns, and adds nothing to the view. -/
theorem andThen (h : Follows kind view m plan d) {view' : β → γ}
    (hf : ∀ a d', m d = .ok a d' → ∃ b d'', f a d' = .ok b d'' ∧ view' b = view a) :
    Follows kind view' (m >>= f) plan d := by
  cases hd : m d with
  | ok a d' =>
    obtain ⟨b, d'', hb, hview⟩ := hf a d' hd
    rw [Follows, ending_of_ok ((bind_of_ok hd).trans hb), hview]
    exact (ending_of_ok hd).symm.trans h
  | error e d' =>
    exact (ending_of_error (bind_of_error hd)).trans ((ending_of_error hd).symm.trans h)

/-- A view of the answer that is known in advance. -/
theorem answers (h : Follows kind view m plan d) {view' : α → δ} {b : δ}
    (hview : ∀ a d', m d = .ok a d' → view' a = b) :
    Follows kind view' m (plan >>= fun _ => Pure.pure b) d := by
  unfold Follows
  cases hd : m d with
  | ok a d' =>
    have hplan := Plan.bind_of_ok (f := fun _ => (Pure.pure b : Plan δ))
      (h.symm.trans (ending_of_ok hd))
    rw [ending_of_ok hd, hview a d' hd, hplan, Plan.ends_pure]
  | error e d' =>
    have hplan := Plan.bind_of_error (f := fun _ => (Pure.pure b : Plan δ))
      (h.symm.trans (ending_of_error hd))
    rw [ending_of_error hd, hplan]

/-- Only what the operation does on this device matters. -/
theorem congr {m' : DeviceM ε α} (h : Follows kind view m plan d) (heq : m' d = m d) :
    Follows kind view m' plan d := by
  unfold Follows ending at h ⊢
  rwa [heq]

theorem withBytes (bytes : Nat) (h : Follows kind view m plan d) :
    Follows kind view (DeviceM.withBytes bytes m) plan d := by
  unfold Follows at h ⊢
  rw [← h]
  unfold ending DeviceM.withBytes
  cases m d <;> rfl

theorem keepingBytes (bytes : Nat) (h : Follows kind view m plan d) :
    Follows kind view (DeviceM.keepingBytes bytes m) plan d := by
  unfold Follows at h ⊢
  rw [← h]
  unfold ending DeviceM.keepingBytes
  cases m d <;> rfl

end Follows

theorem reserveItems_follows (items size : Nat) (d : Device) :
    Follows DeviceError.kind id (reserveItems items size) (.reserve items size) d := by
  unfold Follows ending reserveItems reserve Plan.reserve
  by_cases hsize : Device.maxBytes < items * size
  · simp [hsize, DeviceError.kind]
  · by_cases hfree : d.available < items * size <;> simp [hsize, hfree, DeviceError.kind]

theorem allocate_follows (items size : Nat) (d : Device) :
    Follows DeviceError.kind id (allocate items size) (.allocate items size) d := by
  have hreserve := reserveItems_follows items size d
  unfold Follows ending at hreserve ⊢
  unfold allocate Plan.allocate
  cases hd : reserveItems items size d with
  | error e d' =>
    rw [hd] at hreserve
    exact (Plan.bind_of_error hreserve.symm).symm
  | ok u d' =>
    rw [hd] at hreserve
    rw [Plan.bind_of_ok hreserve.symm]
    by_cases hhost : maxHostBytes < items * size <;> simp [hhost, DeviceError.kind]

theorem withCounter_follows {body : DeviceM DeviceError α} {view : α → β} {plan : Plan β}
    {d : Device} (h : ∀ d', d.Became d' counterBytes → Follows DeviceError.kind view body plan d') :
    Follows DeviceError.kind view (withCounter body) plan.withCounter d := by
  have htaken : Balanced (reserveItems 1 counterBytes) fun _ => counterBytes :=
    reserveItems_balanced 1 counterBytes
  exact (reserveItems_follows 1 counterBytes d).take htaken fun _ d' _ hb => .withBytes _ (h d' hb)

/-- A length whose blocks can be counted gets a grid unless they are too many. -/
theorem forLen_follows {len : Nat} {block : UInt32} (hb : block ≠ 0)
    (hlen : len + UInt32.size ≤ UInt64.size) (d : Device) :
    Follows DeviceError.kind (fun _ => ()) (ofExcept (Launch.forLen (UInt64.ofNat len) block))
      (.launch len block) d := by
  have heq := Launch.forLen_ofNat_eq hb hlen
  have hfew : Launch.blocksFor len block.toNat < UInt32.size ↔
      len ≤ (UInt32.size - 1) * block.toNat := by
    rw [Nat.lt_iff_le_pred (by decide), Launch.blocksFor_le_iff (Launch.toNat_pos hb), Nat.mul_comm]
    exact and_iff_right (by decide)
  rw [Follows, Plan.launch]
  by_cases hgrid : len ≤ (UInt32.size - 1) * block.toNat
  · rw [if_pos (hfew.mpr hgrid)] at heq
    rw [ending_of_ok (ofExcept_of_ok heq d), if_neg (Nat.not_lt_of_le hgrid)]
    rfl
  · rw [if_neg (mt hfew.mp hgrid)] at heq
    rw [ending_of_error (ofExcept_of_error heq d), if_pos (Nat.lt_of_not_le hgrid)]
    rfl

end DeviceM
end GridOps
