import GridOps.Device.Memory

/-!
What a device operation does to the memory budget.

`Balanced m gain` says that `m` leaves the device with `gain a` more bytes taken when it returns
`a`, and with none more when it fails, and that it never takes more than the capacity.  The lemmas
follow the ways in which device operations are put together, so that an operation's account is
read off its definition.
-/

namespace GridOps

/-- The device `d'` is `d` after some launches, with `bytes` more bytes taken. -/
structure Device.Became (d d' : Device) (bytes : Nat) : Prop where
  used : d'.used = d.used + bytes
  capacity : d'.capacity = d.capacity
  workers : d'.workers = d.workers
  morsel : d'.morsel = d.morsel
  order : d'.order = d.order
  within : d.used ≤ d.capacity → d'.used ≤ d'.capacity

namespace Device.Became

theorem refl (d : Device) : d.Became d 0 := ⟨rfl, rfl, rfl, rfl, rfl, id⟩

theorem trans {d₁ d₂ d₃ : Device} {m n : Nat} (h : d₁.Became d₂ m) (h' : d₂.Became d₃ n) :
    d₁.Became d₃ (m + n) where
  used := by rw [h'.used, h.used, Nat.add_assoc]
  capacity := h'.capacity.trans h.capacity
  workers := h'.workers.trans h.workers
  morsel := h'.morsel.trans h.morsel
  order := h'.order.trans h.order
  within := fun hw => h'.within (h.within hw)

theorem launched (d : Device) (n : Nat) : d.Became { d with launches := n } 0 :=
  ⟨rfl, rfl, rfl, rfl, rfl, id⟩

/-- Giving back bytes that were taken since. -/
theorem release {d d' : Device} {m n : Nat} (h : d.Became d' (n + m)) :
    d.Became (d'.release n) m where
  used := by
    have hu := h.used
    show d'.used - n = d.used + m
    omega
  capacity := h.capacity
  workers := h.workers
  morsel := h.morsel
  order := h.order
  within := fun hw => Nat.le_trans (Nat.sub_le _ _) (h.within hw)

end Device.Became

namespace DeviceM

variable {ε ε' α β : Type}

/-! ## Sequences of device operations -/

theorem bind_ok {m : DeviceM ε α} {f : α → DeviceM ε β} {d d' : Device} {b : β}
    (h : (m >>= f) d = .ok b d') : ∃ a d₁, m d = .ok a d₁ ∧ f a d₁ = .ok b d' := by
  change EStateM.bind m f d = _ at h
  unfold EStateM.bind at h
  cases hm : m d with
  | ok a d₁ =>
    rw [hm] at h
    exact ⟨a, d₁, rfl, h⟩
  | error e d₁ =>
    rw [hm] at h
    cases h

theorem bind_error {m : DeviceM ε α} {f : α → DeviceM ε β} {d d' : Device} {e : ε}
    (h : (m >>= f) d = .error e d') :
    m d = .error e d' ∨ ∃ a d₁, m d = .ok a d₁ ∧ f a d₁ = .error e d' := by
  change EStateM.bind m f d = _ at h
  unfold EStateM.bind at h
  cases hm : m d with
  | ok a d₁ =>
    rw [hm] at h
    exact Or.inr ⟨a, d₁, rfl, h⟩
  | error e₁ d₁ =>
    rw [hm] at h
    cases h
    exact Or.inl rfl

theorem bind_of_ok {m : DeviceM ε α} {f : α → DeviceM ε β} {d d₁ : Device} {a : α}
    (h : m d = .ok a d₁) : (m >>= f) d = f a d₁ := by
  change EStateM.bind m f d = _
  unfold EStateM.bind
  rw [h]

theorem bind_of_error {m : DeviceM ε α} {f : α → DeviceM ε β} {d d₁ : Device} {e : ε}
    (h : m d = .error e d₁) : (m >>= f) d = .error e d₁ := by
  change EStateM.bind m f d = _
  unfold EStateM.bind
  rw [h]

theorem ofExcept_ok {r : Except ε α} {d d' : Device} {a : α} (h : ofExcept r d = .ok a d') :
    r = .ok a := by
  cases r with
  | ok _ =>
    cases h
    rfl
  | error _ => cases h

theorem ofExcept_of_ok {r : Except ε α} {a : α} (h : r = .ok a) (d : Device) :
    ofExcept r d = .ok a d := by
  rw [h]
  rfl

theorem ofExcept_of_error {r : Except ε α} {e : ε} (h : r = .error e) (d : Device) :
    ofExcept r d = .error e d := by
  rw [h]
  rfl

theorem withBytes_ok {bytes : Nat} {m : DeviceM ε α} {d d' : Device} {a : α}
    (h : withBytes bytes m d = .ok a d') : ∃ d₁, m d = .ok a d₁ ∧ d' = d₁.release bytes := by
  unfold withBytes at h
  cases hm : m d with
  | ok a₁ d₁ =>
    rw [hm] at h
    cases h
    exact ⟨d₁, rfl, rfl⟩
  | error e d₁ =>
    rw [hm] at h
    cases h

theorem withBytes_error {bytes : Nat} {m : DeviceM ε α} {d d' : Device} {e : ε}
    (h : withBytes bytes m d = .error e d') : ∃ d₁, m d = .error e d₁ ∧ d' = d₁.release bytes := by
  unfold withBytes at h
  cases hm : m d with
  | ok a d₁ =>
    rw [hm] at h
    cases h
  | error e₁ d₁ =>
    rw [hm] at h
    cases h
    exact ⟨d₁, rfl, rfl⟩

theorem keepingBytes_ok {bytes : Nat} {m : DeviceM ε α} {d d' : Device} {a : α}
    (h : keepingBytes bytes m d = .ok a d') : m d = .ok a d' := by
  unfold keepingBytes at h
  cases hm : m d with
  | ok a₁ d₁ =>
    rw [hm] at h
    exact h
  | error e d₁ =>
    rw [hm] at h
    cases h

theorem keepingBytes_error {bytes : Nat} {m : DeviceM ε α} {d d' : Device} {e : ε}
    (h : keepingBytes bytes m d = .error e d') :
    ∃ d₁, m d = .error e d₁ ∧ d' = d₁.release bytes := by
  unfold keepingBytes at h
  cases hm : m d with
  | ok a d₁ =>
    rw [hm] at h
    cases h
  | error e₁ d₁ =>
    rw [hm] at h
    cases h
    exact ⟨d₁, rfl, rfl⟩

theorem mapError_ok {f : ε → ε'} {m : DeviceM ε α} {d d' : Device} {a : α}
    (h : mapError f m d = .ok a d') : m d = .ok a d' := by
  unfold mapError at h
  cases hm : m d with
  | ok a₁ d₁ =>
    rw [hm] at h
    cases h
    rfl
  | error e d₁ =>
    rw [hm] at h
    cases h

theorem mapError_error {f : ε → ε'} {m : DeviceM ε α} {d d' : Device} {e : ε'}
    (h : mapError f m d = .error e d') : ∃ e₁, m d = .error e₁ d' ∧ e = f e₁ := by
  unfold mapError at h
  cases hm : m d with
  | ok a d₁ =>
    rw [hm] at h
    cases h
  | error e₁ d₁ =>
    rw [hm] at h
    cases h
    exact ⟨e₁, rfl, rfl⟩

theorem mapError_of_ok {f : ε → ε'} {m : DeviceM ε α} {d d₁ : Device} {a : α}
    (h : m d = .ok a d₁) : mapError f m d = .ok a d₁ := by
  unfold mapError
  rw [h]

theorem mapError_of_error {f : ε → ε'} {m : DeviceM ε α} {d d₁ : Device} {e : ε}
    (h : m d = .error e d₁) : mapError f m d = .error (f e) d₁ := by
  unfold mapError
  rw [h]

theorem keepingBytes_of_ok {bytes : Nat} {m : DeviceM ε α} {d d₁ : Device} {a : α}
    (h : m d = .ok a d₁) : keepingBytes bytes m d = .ok a d₁ := by
  unfold keepingBytes
  rw [h]

theorem withBytes_of_ok {bytes : Nat} {m : DeviceM ε α} {d d₁ : Device} {a : α}
    (h : m d = .ok a d₁) : withBytes bytes m d = .ok a (d₁.release bytes) := by
  unfold withBytes
  rw [h]

/-- Only what the body does matters. -/
theorem withBytes_congr {bytes : Nat} {m m' : DeviceM ε α} {d d' : Device} (h : m d = m' d') :
    withBytes bytes m d = withBytes bytes m' d' := by
  unfold withBytes
  rw [h]

theorem withBytes_of_error {bytes : Nat} {m : DeviceM ε α} {d d₁ : Device} {e : ε}
    (h : m d = .error e d₁) : withBytes bytes m d = .error e (d₁.release bytes) := by
  unfold withBytes
  rw [h]

/-- The operation returned an answer with the property `p`. -/
def returns (p : α → Bool) : EStateM.Result ε Device α → Bool
  | .ok a _ => p a
  | .error .. => false

theorem exists_of_returns (p : α → Bool) (result : EStateM.Result ε Device α)
    (h : returns p result = true) : ∃ a d, result = .ok a d ∧ p a = true := by
  cases result with
  | ok a d => exact ⟨a, d, rfl, h⟩
  | error e d => cases h

/-! ## Balanced operations -/

/-- An operation that takes `gain a` bytes for good when it returns `a`, and none when it fails. -/
structure Balanced (m : DeviceM ε α) (gain : α → Nat) : Prop where
  ok : ∀ {d a d'}, m d = .ok a d' → d.Became d' (gain a)
  error : ∀ {d e d'}, m d = .error e d' → d.Became d' 0

namespace Balanced

theorem pure {gain : α → Nat} {a : α} (h : gain a = 0) :
    Balanced (Pure.pure a : DeviceM ε α) gain where
  ok := by
    rintro d _ _ ⟨⟩
    rw [h]
    exact .refl d
  error := by rintro d _ _ ⟨⟩

theorem fail {gain : α → Nat} (e : ε) : Balanced (DeviceM.fail e : DeviceM ε α) gain where
  ok := by rintro d _ _ ⟨⟩
  error := by rintro d _ _ ⟨⟩; exact .refl d

theorem ofExcept (r : Except ε α) : Balanced (DeviceM.ofExcept r) (fun _ => 0) where
  ok := by
    intro d a d' h
    cases r with
    | ok _ => cases h; exact .refl d
    | error _ => cases h
  error := by
    intro d e d' h
    cases r with
    | ok _ => cases h
    | error _ => cases h; exact .refl d

/-- What follows an operation has the whole account.  Of what follows, only the answers that the
operation can give matter. -/
theorem bind_of {m : DeviceM ε α} {f : α → DeviceM ε β} {gain : β → Nat}
    (hm : Balanced m fun _ => 0)
    (hf : ∀ d a d', m d = .ok a d' → Balanced (f a) gain) : Balanced (m >>= f) gain where
  ok := by
    intro d b d' h
    obtain ⟨a, d₁, ha, hb⟩ := bind_ok h
    simpa using (hm.ok ha).trans ((hf d a d₁ ha).ok hb)
  error := by
    intro d e d' h
    rcases bind_error h with h | ⟨a, d₁, ha, hb⟩
    · exact hm.error h
    · simpa using (hm.ok ha).trans ((hf d a d₁ ha).error hb)

theorem bind {m : DeviceM ε α} {f : α → DeviceM ε β} {gain : β → Nat}
    (hm : Balanced m fun _ => 0) (hf : ∀ a, Balanced (f a) gain) : Balanced (m >>= f) gain :=
  bind_of hm fun _ a _ _ => hf a

theorem mapError {f : ε → ε'} {m : DeviceM ε α} {gain : α → Nat} (hm : Balanced m gain) :
    Balanced (DeviceM.mapError f m) gain where
  ok := fun h => hm.ok (mapError_ok h)
  error := by
    intro d e d' h
    obtain ⟨e₁, h, -⟩ := mapError_error h
    exact hm.error h

/-- An operation whose answer is turned into another has the same account. -/
theorem map {m : DeviceM ε α} {f : α → β} {own : α → Nat} {gain : β → Nat} (hm : Balanced m own)
    (hf : ∀ a, gain (f a) = own a) : Balanced (m >>= fun a => Pure.pure (f a)) gain where
  ok := by
    intro d b d' h
    obtain ⟨a, d₁, ha, hb⟩ := bind_ok h
    cases hb
    rw [hf a]
    exact hm.ok ha
  error := by
    intro d e d' h
    rcases bind_error h with h | ⟨a, d₁, -, hb⟩
    · exact hm.error h
    · cases hb

/-- Only the account of answers that the operation can give matters. -/
theorem congr_gain {m : DeviceM ε α} {gain gain' : α → Nat} (hm : Balanced m gain)
    (h : ∀ {d a d'}, m d = .ok a d' → gain a = gain' a) : Balanced m gain' where
  ok := by
    intro d a d' ha
    rw [← h ha]
    exact hm.ok ha
  error := hm.error

/-- Bytes that are taken for the time of a body, as many as the answer tells. -/
theorem hold_of {taking : DeviceM ε α} {f : α → DeviceM ε β} {bytes : α → Nat} {gain : β → Nat}
    (ht : Balanced taking bytes) (hf : ∀ a, Balanced (f a) gain) :
    Balanced (taking >>= fun a => withBytes (bytes a) (f a)) gain where
  ok := by
    intro d b d' h
    obtain ⟨a, d₁, ha, hb⟩ := bind_ok h
    obtain ⟨d₂, hbody, rfl⟩ := withBytes_ok hb
    exact ((ht.ok ha).trans ((hf a).ok hbody)).release
  error := by
    intro d e d' h
    rcases bind_error h with h | ⟨a, d₁, ha, hb⟩
    · exact ht.error h
    · obtain ⟨d₂, hbody, rfl⟩ := withBytes_error hb
      exact ((ht.ok ha).trans ((hf a).error hbody)).release

/-- Bytes that are taken for the time of a body. -/
theorem hold {taking : DeviceM ε α} {f : α → DeviceM ε β} {bytes : Nat} {gain : β → Nat}
    (ht : Balanced taking fun _ => bytes) (hf : ∀ a, Balanced (f a) gain) :
    Balanced (taking >>= fun a => withBytes bytes (f a)) gain := ht.hold_of hf

/-- Bytes that the result of a body owns with those that the body took for it. -/
theorem keep_of {taking : DeviceM ε α} {f : α → DeviceM ε β} {bytes : α → Nat} {own : α → β → Nat}
    {gain : β → Nat} (ht : Balanced taking bytes) (hf : ∀ a, Balanced (f a) (own a))
    (hgain : ∀ {a d b d'}, f a d = .ok b d' → gain b = bytes a + own a b) :
    Balanced (taking >>= fun a => keepingBytes (bytes a) (f a)) gain where
  ok := by
    intro d b d' h
    obtain ⟨a, d₁, ha, hb⟩ := bind_ok h
    have hb := keepingBytes_ok hb
    rw [hgain hb]
    exact (ht.ok ha).trans ((hf a).ok hb)
  error := by
    intro d e d' h
    rcases bind_error h with h | ⟨a, d₁, ha, hb⟩
    · exact ht.error h
    · obtain ⟨d₂, hbody, rfl⟩ := keepingBytes_error hb
      exact ((ht.ok ha).trans ((hf a).error hbody)).release

/-- Bytes that the result of a body owns. -/
theorem keep {taking : DeviceM ε α} {f : α → DeviceM ε β} {bytes : Nat}
    (ht : Balanced taking fun _ => bytes) (hf : ∀ a, Balanced (f a) fun _ => 0) :
    Balanced (taking >>= fun a => keepingBytes bytes (f a)) fun _ => bytes :=
  ht.keep_of hf fun _ => rfl

end Balanced

/-! ## Taking memory -/

theorem reserve_balanced (bytes : Nat) : Balanced (reserve bytes) fun _ => bytes where
  ok := by
    intro d a d' h
    unfold reserve at h
    split at h
    · cases h
    · rename_i hroom
      cases h
      refine ⟨rfl, rfl, rfl, rfl, rfl, fun hw => ?_⟩
      show d.used + bytes ≤ d.capacity
      unfold Device.available at hroom
      omega
  error := by
    intro d e d' h
    unfold reserve at h
    split at h
    · cases h; exact .refl d
    · cases h

theorem reserveItems_balanced (items size : Nat) :
    Balanced (reserveItems items size) fun _ => items * size where
  ok := by
    intro d a d' h
    unfold reserveItems at h
    split at h
    · cases h
    · exact (reserve_balanced _).ok h
  error := by
    intro d e d' h
    unfold reserveItems at h
    split at h
    · cases h; exact .refl d
    · exact (reserve_balanced _).error h

theorem allocate_balanced (items size : Nat) :
    Balanced (allocate items size) fun _ => items * size where
  ok := by
    intro d a d' h
    unfold allocate at h
    cases hr : reserveItems items size d with
    | error e d₁ => rw [hr] at h; cases h
    | ok u d₁ =>
      rw [hr] at h
      dsimp only at h
      split at h
      · cases h
      · cases h; exact (reserveItems_balanced items size).ok hr
  error := by
    intro d e d' h
    unfold allocate at h
    cases hr : reserveItems items size d with
    | error e₁ d₁ =>
      rw [hr] at h
      cases h
      exact (reserveItems_balanced items size).error hr
    | ok u d₁ =>
      rw [hr] at h
      dsimp only at h
      split at h
      · cases h; exact .refl d
      · cases h

theorem allocate_le {items size : Nat} {d d' : Device} {u : Unit}
    (h : allocate items size d = .ok u d') : items * size ≤ maxHostBytes := by
  unfold allocate at h
  split at h
  · cases h
  · split at h
    · cases h
    · rename_i hhost
      exact Nat.le_of_not_lt hhost

/-- Bytes that a word can hold and that are free on the device are taken. -/
theorem reserveItems_isOk {items size : Nat} {d : Device} (hbytes : items * size ≤ Device.maxBytes)
    (hroom : d.used + items * size ≤ d.capacity) :
    reserveItems items size d = .ok () (d.take (items * size)) := by
  unfold reserveItems reserve Device.available
  rw [if_neg (by omega), if_neg (by omega)]

/-- A buffer that the host can hold and the device has room for is allocated. -/
theorem allocate_isOk {items size : Nat} {d : Device} (hhost : items * size ≤ maxHostBytes)
    (hroom : d.used + items * size ≤ d.capacity) :
    allocate items size d = .ok () (d.take (items * size)) := by
  have hbytes : maxHostBytes ≤ Device.maxBytes := by decide
  unfold allocate
  rw [reserveItems_isOk (Nat.le_trans hhost hbytes) hroom]
  dsimp only
  rw [if_neg (by omega)]

theorem withCounter_balanced {body : DeviceM DeviceError α} {gain : α → Nat}
    (h : Balanced body gain) : Balanced (withCounter body) gain :=
  Balanced.hold (reserveItems_balanced 1 counterBytes) fun _ => h

theorem withCounter_ok {body : DeviceM DeviceError α} {d d' : Device} {a : α}
    (h : withCounter body d = .ok a d') :
    ∃ d₁ d₂, d.Became d₁ counterBytes ∧ body d₁ = .ok a d₂ ∧ d' = d₂.release counterBytes := by
  obtain ⟨_, d₁, htake, hbody⟩ := bind_ok h
  obtain ⟨d₂, hinner, rfl⟩ := withBytes_ok hbody
  exact ⟨d₁, d₂, (reserveItems_balanced 1 counterBytes).ok htake, hinner, rfl⟩

/-! ## Launches -/

theorem run_became {σ : Type} (d : Device) (name : String) (l : Launch) (kernel : Kernel σ)
    (s : σ) : d.Became (d.run name l kernel s).2 0 := by
  unfold Device.run
  split
  · exact .refl d
  · dsimp only
    split <;> exact .launched d _

/-- A launch whose outcome is returned, also when it failed. -/
theorem run_balanced {σ : Type} (name : String) (l : Launch) (kernel : Kernel σ) (s : σ) :
    Balanced (fun d => .ok (d.run name l kernel s).1 (d.run name l kernel s).2 :
      DeviceM ε (Outcome σ)) fun _ => 0 where
  ok := by
    rintro d _ _ ⟨⟩
    exact run_became d name l kernel s
  error := by rintro d _ _ ⟨⟩

theorem launch_balanced {σ : Type} (name : String) (l : Launch) (kernel : Kernel σ) (s : σ) :
    Balanced (launch name l kernel s) fun _ => 0 where
  ok := by
    intro d a d' h
    have hb := run_became d name l kernel s
    unfold launch at h
    split at h <;> rename_i hr <;> cases h
    rw [hr] at hb
    exact hb
  error := by
    intro d e d' h
    have hb := run_became d name l kernel s
    unfold launch at h
    split at h <;> rename_i hr <;> cases h
    rw [hr] at hb
    exact hb

end DeviceM
end GridOps
