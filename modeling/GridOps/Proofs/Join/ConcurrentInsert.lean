import GridOps.Join.ConcurrentInsert
import GridOps.Proofs.Join.Filling

/-!
Concurrent inserts are inserts in some order.

An insert takes effect when it exchanges the reserved key: at this moment its slot is the first free
one of its walk (`Sound.firstFree`), since slots never become free again.  So in every schedule the
table is the one that the inserts with a slot make one after another, but for rows that are still to
be stored (`Serial.run`), and only a full table refuses an insert (`run_inserts`).
-/

namespace GridOps

/-! ## A thread that changes -/

theorem filterMap_set_of_eq {α β : Type} {f : α → Option β} {l : List α} {t : Nat} {a b : α}
    (h : l[t]? = some a) (hf : f b = f a) : (l.set t b).filterMap f = l.filterMap f := by
  induction l generalizing t with
  | nil => rfl
  | cons x l ih =>
    cases t with
    | zero =>
      cases h
      rw [List.set_cons_zero, List.filterMap_cons, List.filterMap_cons, hf]
    | succ t =>
      rw [List.set_cons_succ, List.filterMap_cons, List.filterMap_cons, ih h]

theorem filterMap_set_perm {α β : Type} {f : α → Option β} {l : List α} {t : Nat} {a b : α} {c : β}
    (h : l[t]? = some a) (hnone : f a = none) (hsome : f b = some c) :
    ((l.set t b).filterMap f).Perm (l.filterMap f ++ [c]) := by
  induction l generalizing t with
  | nil => cases h
  | cons x l ih =>
    cases t with
    | zero =>
      cases h
      rw [List.set_cons_zero, List.filterMap_cons_some hsome, List.filterMap_cons_none hnone]
      exact (List.perm_append_singleton c _).symm
    | succ t =>
      rw [List.set_cons_succ, List.filterMap_cons, List.filterMap_cons]
      cases f x with
      | none => exact ih h
      | some y => exact (ih h).cons y

theorem mem_set_of_ne {α : Type} {l : List α} {t : Nat} {a b x : α} (h : l[t]? = some a)
    (hx : x ∈ l) (hne : x ≠ a) : x ∈ l.set t b := by
  obtain ⟨k, hk⟩ := List.mem_iff_getElem?.mp hx
  have htk : t ≠ k := by
    rintro rfl
    exact hne (Option.some.inj (hk.symm.trans h))
  exact List.mem_iff_getElem?.mpr ⟨k, by rw [List.getElem?_set_ne htk, hk]⟩

theorem forall_mem_set {α : Type} {P : α → Prop} {l : List α} {t : Nat} {b : α}
    (h : ∀ x ∈ l, P x) (hb : P b) : ∀ x ∈ l.set t b, P x := fun x hx =>
  (List.mem_or_eq_of_mem_set hx).elim (h x) fun hsame => hsame ▸ hb

variable {K S : Type}

/-! ## One thread -/

namespace Inserter

variable {inserter : Inserter K S}

/-- The slot that the insert has taken, and its entry. -/
def claim? (inserter : Inserter K S) : Option (Nat × (K × S)) :=
  match inserter.progress with
  | .claimed i | .stored i => some (i, inserter.entry)
  | .walking .. | .refused => none

/-- The slots that the insert has left behind are taken. -/
def Walked (inserter : Inserter K S) (g : Multimap K S) : Prop :=
  match inserter.progress with
  | .walking i left => ∃ u, u + left + 1 = g.capacity ∧
      i = (u + g.home inserter.key) % g.capacity ∧
      ∀ v < u, g.Taken ((v + g.home inserter.key) % g.capacity)
  | .refused => ∀ p < g.capacity, g.Taken p
  | .claimed _ | .stored _ => True

theorem Walked.place {g : Multimap K S} (h : inserter.Walked g) {i left : Nat}
    (hp : inserter.progress = .walking i left) : ∃ u, u + left + 1 = g.capacity ∧
      i = (u + g.home inserter.key) % g.capacity ∧
      ∀ v < u, g.Taken ((v + g.home inserter.key) % g.capacity) := by
  unfold Walked at h
  rwa [hp] at h

theorem progress_of_refused (h : inserter.answer? = some false) :
    inserter.progress = .refused := by
  unfold answer? at h
  split at h
  · cases h
  · cases h
  · cases h
  · assumption

/-- A filled slot leaves behind what was left behind. -/
theorem Walked.put {g : Multimap K S} (h : inserter.Walked g) {p : Nat} (hp : p < g.capacity)
    (e : K × S) : inserter.Walked (g.put p e) := by
  unfold Walked at h ⊢
  split
  · rename_i i left hprogress
    rw [hprogress] at h
    obtain ⟨u, hleft, hi, htaken⟩ := h
    simp only [Multimap.capacity_put, Multimap.home_put]
    exact ⟨u, hleft, hi, fun v hv => (htaken v hv).put hp e⟩
  · rename_i hprogress
    rw [hprogress] at h
    rw [Multimap.capacity_put]
    exact fun q hq => (h q hq).put hp e
  · trivial
  · trivial

/-- An insert that goes past a taken slot leaves it behind. -/
theorem Walked.pass {g : Multimap K S} (h : inserter.Walked g) (hpos : 0 < g.capacity)
    {i left : Nat} (hp : inserter.progress = .walking i left) (htaken : g.Taken i) :
    ({ inserter with progress := .pastTaken g.capacity i left } : Inserter K S).Walked g := by
  obtain ⟨u, hleft, rfl, hbehind⟩ := h.place hp
  have hhome := Multimap.home_lt hpos inserter.key
  have hnext : ∀ v < u + 1, g.Taken ((v + g.home inserter.key) % g.capacity) := fun v hv => by
    rcases Nat.lt_succ_iff_lt_or_eq.mp hv with hlt | rfl
    · exact hbehind v hlt
    · exact htaken
  cases left with
  | zero =>
    intro p hlt
    obtain ⟨v, hv, rfl⟩ := Multimap.exists_place hhome hlt
    exact hnext v (by omega)
  | succ left =>
    refine ⟨u + 1, by omega, ?_, hnext⟩
    have hafter := Multimap.after_eq (Nat.mod_lt (u + g.home inserter.key) hpos)
    rw [Nat.mod_add_mod, Nat.add_right_comm] at hafter
    exact hafter

/-- How many steps the insert has at most before it. -/
def remaining (inserter : Inserter K S) : Nat :=
  match inserter.progress with
  | .walking _ left => left + 2
  | .claimed _ => 1
  | .stored _ | .refused => 0

theorem answer?_of_remaining (h : inserter.remaining = 0) : inserter.answer?.isSome := by
  unfold remaining at h
  unfold answer?
  split at h <;> simp_all

/-! ### Its steps -/

variable [JoinKey K] {slots : Array (Slot K S)}

theorem step_of_free {i left : Nat} {slot : Slot K S} (hp : inserter.progress = .walking i left)
    (hslot : slots[i]? = some slot) (hkey : slot.key = JoinKey.reserved K) :
    inserter.step slots = ({ inserter with progress := .claimed i },
      slots.setIfInBounds i { slot with key := inserter.key }) := by
  simp [step, hp, hslot, CellStep.apply, hkey]

theorem step_of_taken {i left : Nat} {slot : Slot K S} (hp : inserter.progress = .walking i left)
    (hslot : slots[i]? = some slot) (hkey : slot.key ≠ JoinKey.reserved K) :
    inserter.step slots =
      ({ inserter with progress := .pastTaken slots.size i left }, slots) := by
  simp [step, hp, hslot, CellStep.apply, hkey]

theorem step_of_claimed {i : Nat} (hp : inserter.progress = .claimed i) :
    inserter.step slots = ({ inserter with progress := .stored i },
      slots.modify i fun slot => { slot with row := inserter.row }) := by
  simp [step, hp]

theorem step_of_answer (h : inserter.answer?.isSome) : inserter.step slots = (inserter, slots) := by
  unfold answer? at h
  unfold step
  split at h <;> simp_all

theorem remaining_step (inserter : Inserter K S)
    (hslot : ∀ i left, inserter.progress = .walking i left → ∃ slot, slots[i]? = some slot) :
    (inserter.step slots).1.remaining ≤ inserter.remaining - 1 := by
  cases hp : inserter.progress with
  | walking i left =>
    obtain ⟨slot, hslot⟩ := hslot i left hp
    by_cases hkey : slot.key = JoinKey.reserved K
    · rw [step_of_free hp hslot hkey]
      simp [remaining, hp]
    · rw [step_of_taken hp hslot hkey]
      cases left <;> simp [remaining, hp, InsertProgress.pastTaken]
  | claimed i =>
    rw [step_of_claimed hp]
    simp [remaining]
  | stored i =>
    rw [step_of_answer (by rw [answer?, hp]; rfl)]
    simp [remaining, hp]
  | refused =>
    rw [step_of_answer (by rw [answer?, hp]; rfl)]
    simp [remaining, hp]

theorem entry_step (inserter : Inserter K S) : (inserter.step slots).1.entry = inserter.entry := by
  unfold step
  split
  · split
    · rfl
    · split <;> rfl
  · rfl
  · rfl
  · rfl

end Inserter

/-! ## The table behind the slots -/

namespace SharedTable

/-- The slots that inserts have taken, and their entries. -/
def claims (s : SharedTable K S) : List (Nat × (K × S)) := s.inserters.filterMap Inserter.claim?

/-- The row of slot `p` is still to be stored. -/
def Pending (s : SharedTable K S) (p : Nat) : Prop :=
  ∃ inserter ∈ s.inserters, inserter.progress = .claimed p

/-- The state after thread `t` has become `inserter` and changed the slots. -/
def advance (s : SharedTable K S) (t : Nat) (inserter : Inserter K S) (slots : Array (Slot K S)) :
    SharedTable K S :=
  { s with slots := slots, inserters := s.inserters.set t inserter }

section Threads

variable {s : SharedTable K S} {t : Nat} {inserter : Inserter K S}

theorem mem_claims (hin : s.inserters[t]? = some inserter) {c : Nat × (K × S)}
    (hc : inserter.claim? = some c) : c ∈ s.claims :=
  List.mem_filterMap.mpr ⟨inserter, List.mem_of_getElem? hin, hc⟩

/-- Rows stay pending but for that of a thread that stores it. -/
theorem pending_advance {p : Nat} {inserter' : Inserter K S} {slots : Array (Slot K S)}
    (hin : s.inserters[t]? = some inserter) (hp : inserter.progress ≠ .claimed p)
    (h : s.Pending p) : (s.advance t inserter' slots).Pending p := by
  obtain ⟨x, hx, hclaimed⟩ := h
  exact ⟨x, mem_set_of_ne hin hx fun hsame => hp (hsame ▸ hclaimed), hclaimed⟩

theorem Finished.not_pending (h : s.Finished) (p : Nat) : ¬s.Pending p := by
  rintro ⟨inserter, hmem, hp⟩
  have hanswer := h inserter hmem
  rw [Inserter.answer?, hp] at hanswer
  cases hanswer

/-- After all inserts have returned those with a slot have returned true. -/
theorem Finished.answer?_iff (h : s.Finished) {inserter : Inserter K S}
    (hmem : inserter ∈ s.inserters) :
    inserter.answer? = some true ↔ inserter.claim?.isSome := by
  have hanswer := h inserter hmem
  unfold Inserter.answer? at hanswer ⊢
  unfold Inserter.claim?
  split <;> simp_all

theorem Finished.countP_eq (h : s.Finished) :
    s.inserters.countP (·.answer? = some true) = s.claims.length := by
  rw [claims, List.length_filterMap_eq_countP]
  refine List.countP_congr fun inserter hmem => ?_
  rw [decide_eq_true_iff]
  exact h.answer?_iff hmem

end Threads

variable [JoinKey K]

/-- The cells are those of an entry, but for the row if that is pending. -/
def Shows (s : SharedTable K S) (p : Nat) (slot : Slot K S) : Option (K × S) → Prop
  | none => slot.key = JoinKey.reserved K
  | some e => slot.key = e.1 ∧ e.1 ≠ JoinKey.reserved K ∧ (slot.row = e.2 ∨ s.Pending p)

/-- Between two steps the slots stand for the table `g`, which has come from `m`. -/
structure Sound (m g : Multimap K S) (s : SharedTable K S) : Prop where
  keying : s.keying = g.keying
  size : s.slots.size = g.capacity
  pos : 0 < g.capacity
  filled : m.Filled s.claims g
  shows : ∀ p slot entry, s.slots[p]? = some slot → g.slots[p]? = some entry → s.Shows p slot entry
  walked : ∀ inserter ∈ s.inserters, inserter.Walked g
  keys : ∀ inserter ∈ s.inserters, inserter.key ≠ JoinKey.reserved K

theorem step_of_none {s : SharedTable K S} {t : Nat} (h : s.inserters[t]? = none) :
    s.step t = s := by
  rw [step, h]

theorem step_of_some {s : SharedTable K S} {t : Nat} {inserter : Inserter K S}
    (h : s.inserters[t]? = some inserter) :
    s.step t = s.advance t (inserter.step s.slots).1 (inserter.step s.slots).2 := by
  rw [step, h]
  rfl

theorem step_of_answer {s : SharedTable K S} {t : Nat} {inserter : Inserter K S}
    (h : s.inserters[t]? = some inserter) (hanswer : inserter.answer?.isSome) : s.step t = s := by
  rw [step_of_some h, Inserter.step_of_answer hanswer]
  obtain ⟨ht, rfl⟩ := List.getElem?_eq_some_iff.mp h
  rw [advance, List.set_getElem_self]

namespace Sound

variable {m g : Multimap K S} {s : SharedTable K S} {t : Nat} {inserter : Inserter K S}

/-- A slot that an insert comes to is one of the table. -/
theorem exists_slot (h : Sound m g s) {i left : Nat} (hin : s.inserters[t]? = some inserter)
    (hp : inserter.progress = .walking i left) : ∃ slot, s.slots[i]? = some slot := by
  obtain ⟨u, -, hi, -⟩ := (h.walked inserter (List.mem_of_getElem? hin)).place hp
  have hlt : i < s.slots.size := by
    rw [h.size, hi]
    exact Nat.mod_lt _ h.pos
  exact ⟨s.slots[i], Array.getElem?_eq_getElem hlt⟩

/-- Free cells are a free slot. -/
theorem slot_of_free (h : Sound m g s) {p : Nat} {slot : Slot K S} (hslot : s.slots[p]? = some slot)
    (hkey : slot.key = JoinKey.reserved K) : g.slots[p]? = some none := by
  have hp : p < g.capacity := h.size ▸ (Array.getElem?_eq_some_iff.mp hslot).1
  rcases Multimap.taken_or_free hp with ⟨e, he⟩ | hfree
  · obtain ⟨hsame, hreserved, -⟩ := h.shows p slot _ hslot he
    exact absurd (hsame.symm.trans hkey) hreserved
  · exact hfree

theorem taken_of_key (h : Sound m g s) {p : Nat} {slot : Slot K S} (hslot : s.slots[p]? = some slot)
    (hkey : slot.key ≠ JoinKey.reserved K) : g.Taken p := by
  have hp : p < g.capacity := h.size ▸ (Array.getElem?_eq_some_iff.mp hslot).1
  exact (Multimap.taken_or_free hp).resolve_right fun hfree =>
    hkey (h.shows p slot _ hslot hfree)

/-- A free slot that an insert comes to is the first of its walk. -/
theorem firstFree (h : Sound m g s) {i left : Nat} {slot : Slot K S}
    (hin : s.inserters[t]? = some inserter) (hp : inserter.progress = .walking i left)
    (hslot : s.slots[i]? = some slot) (hkey : slot.key = JoinKey.reserved K) :
    g.firstFree? g.capacity (g.home inserter.key) = some i := by
  have hfree := h.slot_of_free hslot hkey
  obtain ⟨u, hleft, rfl, htaken⟩ := (h.walked inserter (List.mem_of_getElem? hin)).place hp
  exact Multimap.firstFree?_of_taken (Multimap.home_lt h.pos _) (by omega) htaken hfree

theorem shows_advance {p : Nat} {slot : Slot K S} {entry : Option (K × S)}
    {inserter' : Inserter K S} {slots : Array (Slot K S)}
    (hin : s.inserters[t]? = some inserter) (hp : inserter.progress ≠ .claimed p)
    (h : s.Shows p slot entry) : (s.advance t inserter' slots).Shows p slot entry := by
  cases entry with
  | none => exact h
  | some e => exact ⟨h.1, h.2.1, h.2.2.imp_right (pending_advance hin hp)⟩

/-- An insert takes a free slot. -/
theorem claim (h : Sound m g s) {i left : Nat} {slot : Slot K S}
    (hin : s.inserters[t]? = some inserter) (hp : inserter.progress = .walking i left)
    (hslot : s.slots[i]? = some slot) (hkey : slot.key = JoinKey.reserved K)
    {s' : SharedTable K S} (hs : s.advance t { inserter with progress := .claimed i }
      (s.slots.setIfInBounds i { slot with key := inserter.key }) = s') :
    s'.claims.Perm (s.claims ++ [(i, inserter.entry)]) ∧ Sound m (g.put i inserter.entry) s' := by
  have hmem := List.mem_of_getElem? hin
  have hfree := h.slot_of_free hslot hkey
  have hi : i < g.capacity := Multimap.lt_capacity hfree
  have hclaims : s'.claims.Perm (s.claims ++ [(i, inserter.entry)]) := by
    subst hs
    refine filterMap_set_perm hin ?_ rfl
    rw [Inserter.claim?, hp]
  subst hs
  refine ⟨hclaims, ?_⟩
  constructor
  case keying => exact h.keying
  case size => rw [Multimap.capacity_put, ← h.size]; exact Array.size_setIfInBounds
  case pos => rw [Multimap.capacity_put]; exact h.pos
  case filled => exact (h.filled.put hfree inserter.entry).perm hclaims
  case shows =>
    intro p slot' entry hslot' hentry
    have hslots : (s.slots.setIfInBounds i { slot with key := inserter.key })[p]? = some slot' :=
      hslot'
    rw [Array.getElem?_setIfInBounds] at hslots
    rw [Multimap.slots_put hi] at hentry
    by_cases hpi : i = p
    · subst hpi
      rw [if_pos rfl, if_pos (h.size ▸ hi)] at hslots
      rw [if_pos rfl] at hentry
      cases hslots
      cases hentry
      exact ⟨rfl, h.keys inserter hmem, Or.inr
        ⟨_, List.mem_set (List.getElem?_eq_some_iff.mp hin).1 _, rfl⟩⟩
    · rw [if_neg hpi] at hslots hentry
      refine shows_advance hin ?_ (h.shows p slot' entry hslots hentry)
      rw [hp]
      exact InsertProgress.noConfusion
  case walked => exact forall_mem_set (fun x hx => (h.walked x hx).put hi _) trivial
  case keys => exact forall_mem_set h.keys (h.keys inserter hmem)

/-- An insert goes past a slot that is taken, and is refused after the last one. -/
theorem pass (h : Sound m g s) {i left : Nat} {slot : Slot K S}
    (hin : s.inserters[t]? = some inserter) (hp : inserter.progress = .walking i left)
    (hslot : s.slots[i]? = some slot) (hkey : slot.key ≠ JoinKey.reserved K)
    {s' : SharedTable K S} (hs : s.advance t
      { inserter with progress := .pastTaken s.slots.size i left } s.slots = s') :
    s'.claims = s.claims ∧ Sound m g s' := by
  have hmem := List.mem_of_getElem? hin
  have hclaims : s'.claims = s.claims := by
    subst hs
    refine filterMap_set_of_eq hin ?_
    cases left <;> simp [Inserter.claim?, hp, InsertProgress.pastTaken]
  subst hs
  refine ⟨hclaims, ?_⟩
  constructor
  case keying => exact h.keying
  case size => exact h.size
  case pos => exact h.pos
  case filled => exact hclaims ▸ h.filled
  case shows =>
    intro p slot' entry hslot' hentry
    refine shows_advance hin ?_ (h.shows p slot' entry hslot' hentry)
    rw [hp]
    exact InsertProgress.noConfusion
  case walked =>
    have hpast := (h.walked inserter hmem).pass h.pos hp (h.taken_of_key hslot hkey)
    exact forall_mem_set h.walked (h.size ▸ hpast)
  case keys => exact forall_mem_set h.keys (h.keys inserter hmem)

/-- An insert stores its row in its slot. -/
theorem store (h : Sound m g s) {i : Nat} (hin : s.inserters[t]? = some inserter)
    (hp : inserter.progress = .claimed i) {s' : SharedTable K S}
    (hs : s.advance t { inserter with progress := .stored i }
      (s.slots.modify i fun slot => { slot with row := inserter.row }) = s') :
    s'.claims = s.claims ∧ Sound m g s' := by
  have hmem := List.mem_of_getElem? hin
  have hclaim : inserter.claim? = some (i, inserter.entry) := by rw [Inserter.claim?, hp]
  have hclaims : s'.claims = s.claims := by
    subst hs
    exact filterMap_set_of_eq hin hclaim.symm
  have hentry : g.slots[i]? = some (some inserter.entry) :=
    (h.filled.taken i _).mpr (Or.inr (mem_claims hin hclaim))
  subst hs
  refine ⟨hclaims, ?_⟩
  constructor
  case keying => exact h.keying
  case size => exact Array.size_modify.trans h.size
  case pos => exact h.pos
  case filled => exact hclaims ▸ h.filled
  case shows =>
    intro p slot' entry hslot' hentry'
    have hslots : (s.slots.modify i fun slot => { slot with row := inserter.row })[p]? =
      some slot' := hslot'
    rw [Array.getElem?_modify] at hslots
    by_cases hpi : i = p
    · subst hpi
      rw [if_pos rfl, Option.map_eq_some_iff] at hslots
      obtain ⟨slot, hslot, rfl⟩ := hslots
      cases hentry.symm.trans hentry'
      obtain ⟨hkey, hreserved, -⟩ := h.shows i slot _ hslot hentry
      exact ⟨hkey, hreserved, Or.inl rfl⟩
    · rw [if_neg hpi] at hslots
      refine shows_advance hin ?_ (h.shows p slot' entry hslots hentry')
      rw [hp]
      exact fun hsame => hpi (InsertProgress.claimed.inj hsame)
  case walked => exact forall_mem_set h.walked trivial
  case keys => exact forall_mem_set h.keys (h.keys inserter hmem)

/-- A step leaves the table as it is, or inserts the entry of the thread. -/
theorem step (h : Sound m g s) (t : Nat) :
    ((s.step t).claims = s.claims ∧ Sound m g (s.step t)) ∨
      ∃ p e, e.1 ≠ JoinKey.reserved K ∧ g.firstFree? g.capacity (g.home e.1) = some p ∧
        (s.step t).claims.Perm (s.claims ++ [(p, e)]) ∧ Sound m (g.put p e) (s.step t) := by
  cases hin : s.inserters[t]? with
  | none =>
    rw [step_of_none hin]
    exact Or.inl ⟨rfl, h⟩
  | some inserter =>
    cases hp : inserter.progress with
    | walking i left =>
      obtain ⟨slot, hslot⟩ := h.exists_slot hin hp
      by_cases hkey : slot.key = JoinKey.reserved K
      · refine Or.inr ⟨i, inserter.entry, h.keys inserter (List.mem_of_getElem? hin),
          h.firstFree hin hp hslot hkey, ?_⟩
        exact h.claim hin hp hslot hkey
          (by rw [step_of_some hin, Inserter.step_of_free hp hslot hkey])
      · exact Or.inl (h.pass hin hp hslot hkey
          (by rw [step_of_some hin, Inserter.step_of_taken hp hslot hkey]))
    | claimed i =>
      exact Or.inl (h.store hin hp (by rw [step_of_some hin, Inserter.step_of_claimed hp]))
    | stored i =>
      rw [step_of_answer hin (by rw [Inserter.answer?, hp]; rfl)]
      exact Or.inl ⟨rfl, h⟩
    | refused =>
      rw [step_of_answer hin (by rw [Inserter.answer?, hp]; rfl)]
      exact Or.inl ⟨rfl, h⟩

end Sound

/-! ## Runs -/

section Runs

variable {m : Multimap K S} {held entries : List (K × S)} {s : SharedTable K S}

/-- The slots stand for `m` after the inserts `order`, one after another. -/
structure Serial (m : Multimap K S) (held : List (K × S)) (s : SharedTable K S)
    (order : List (K × S)) : Prop where
  perm : order.Perm (s.claims.map Prod.snd)
  holds : (m.insertAll order).Holds (held ++ order)
  sound : Sound m (m.insertAll order) s

theorem Serial.step {order : List (K × S)} (h : Serial m held s order) (t : Nat) :
    ∃ order', Serial m held (s.step t) order' := by
  rcases h.sound.step t with ⟨hclaims, hsound⟩ | ⟨p, e, hkey, hfirst, hclaims, hsound⟩
  · exact ⟨order, hclaims ▸ h.perm, h.holds, hsound⟩
  · -- The slot is the first free one of the walk, so the step does what an insert does.
    have hinsert : m.insertAll (order ++ [e]) = (m.insertAll order).put p e := by
      rw [Multimap.insertAll_append]
      exact congrArg Prod.fst (Multimap.insert_eq_of_some hkey hfirst)
    refine ⟨order ++ [e], ?_, ?_, hinsert ▸ hsound⟩
    · have hperm := hclaims.map Prod.snd
      rw [List.map_append, List.map_singleton] at hperm
      exact (h.perm.append_right [e]).trans hperm.symm
    · rw [hinsert, ← List.append_assoc]
      exact h.holds.put_firstFree hfirst

theorem Serial.run {order : List (K × S)} (h : Serial m held s order) (schedule : List Nat) :
    ∃ order', Serial m held (s.run schedule) order' := by
  induction schedule generalizing s order with
  | nil => exact ⟨order, h⟩
  | cons t schedule ih =>
    obtain ⟨order', h'⟩ := h.step t
    exact ih h'

/-! ## What has been inserted -/

theorem entry?_of_shows {p : Nat} {slot : Slot K S} {entry : Option (K × S)}
    (h : s.Shows p slot entry) (hstored : ¬s.Pending p) : slot.entry? = entry := by
  cases entry with
  | none => exact if_pos h
  | some e =>
    obtain ⟨hkey, hreserved, hrow⟩ := h
    rw [Slot.entry?, if_neg (hkey ▸ hreserved), hkey, hrow.resolve_right hstored]

/-- After all inserts have returned a look-up sees the table that the slots stand for. -/
theorem Sound.settled_eq {g : Multimap K S} (h : Sound m g s) (hdone : s.Finished) :
    s.settled = g := by
  have hslots : s.settled.slots = g.slots := by
    refine Array.ext_getElem? fun p => ?_
    rw [settled, Array.getElem?_map]
    cases hslot : s.slots[p]? with
    | none =>
      have hp : g.slots.size ≤ p := by
        rw [← show s.slots.size = g.slots.size from h.size]
        exact Array.getElem?_eq_none_iff.mp hslot
      rw [Array.getElem?_eq_none hp, Option.map_none]
    | some slot =>
      obtain ⟨entry, hentry⟩ := Multimap.exists_slot (m := g)
        (h.size ▸ (Array.getElem?_eq_some_iff.mp hslot).1)
      rw [hentry, Option.map_some,
        entry?_of_shows (h.shows p slot entry hslot hentry) (hdone.not_pending p)]
  obtain ⟨slots, keying⟩ := g
  exact congr (congrArg Multimap.mk hslots) h.keying

/-- An insert that is refused has seen the table full. -/
theorem Sound.full_of_refused {g : Multimap K S} (h : Sound m g s) {inserter : Inserter K S}
    (hmem : inserter ∈ s.inserters) (hanswer : inserter.answer? = some false) :
    ∀ p < g.capacity, g.Taken p := by
  have hwalked := h.walked inserter hmem
  unfold Inserter.Walked at hwalked
  rw [Inserter.progress_of_refused hanswer] at hwalked
  exact hwalked

/-- After all inserts have returned as many have returned true as there is room for. -/
theorem Serial.countP_eq {order : List (K × S)} (h : Serial m held s order) (hm : m.Holds held)
    (hdone : s.Finished) : s.inserters.countP (·.answer? = some true) =
      min s.inserters.length (m.capacity - m.len) := by
  have hheld : m.len = held.length := hm.perm.length_eq
  have horder : order.length = s.claims.length := h.perm.length_eq.trans (List.length_map _)
  have hcapacity := h.sound.filled.capacity
  have hroom := h.holds.length_le
  have hcount := hdone.countP_eq
  have hle := List.countP_le_length (l := s.inserters) (p := (·.answer? = some true))
  rw [List.length_append] at hroom
  -- Either some insert has seen the table full, or all have a slot.
  by_cases hrefused : ∃ inserter ∈ s.inserters, inserter.answer? = some false
  · obtain ⟨inserter, hmem, hanswer⟩ := hrefused
    have hfull := h.holds.length_of_full (h.sound.full_of_refused hmem hanswer)
    rw [List.length_append] at hfull
    omega
  · have hall : s.inserters.countP (·.answer? = some true) = s.inserters.length := by
      refine List.countP_eq_length.mpr fun inserter hmem => ?_
      obtain ⟨answer, hanswer⟩ := Option.isSome_iff_exists.mp (hdone inserter hmem)
      cases answer with
      | true => exact decide_eq_true hanswer
      | false => exact absurd ⟨inserter, hmem, hanswer⟩ hrefused
    omega

/-! ## Progress -/

theorem entries_step (s : SharedTable K S) (t : Nat) :
    (s.step t).inserters.map Inserter.entry = s.inserters.map Inserter.entry := by
  cases hin : s.inserters[t]? with
  | none => rw [step_of_none hin]
  | some inserter =>
    rw [step_of_some hin, ← List.filterMap_eq_map]
    exact filterMap_set_of_eq hin (congrArg some inserter.entry_step)

theorem entries_run (s : SharedTable K S) (schedule : List Nat) :
    (s.run schedule).inserters.map Inserter.entry = s.inserters.map Inserter.entry := by
  induction schedule generalizing s with
  | nil => rfl
  | cons t schedule ih => exact (ih (s.step t)).trans (s.entries_step t)

/-- With each of its steps a thread comes nearer to its end. -/
theorem Sound.remaining_step {g : Multimap K S} (h : Sound m g s) (t : Nat) {t' : Nat}
    {inserter' : Inserter K S} (h' : (s.step t).inserters[t']? = some inserter') :
    ∃ inserter, s.inserters[t']? = some inserter ∧
      inserter'.remaining ≤ inserter.remaining - if t = t' then 1 else 0 := by
  cases hin : s.inserters[t]? with
  | none =>
    rw [step_of_none hin] at h'
    have hne : t ≠ t' := by
      rintro rfl
      cases hin.symm.trans h'
    exact ⟨inserter', h', by rw [if_neg hne]; omega⟩
  | some inserter =>
    rw [step_of_some hin] at h'
    have hset : (s.inserters.set t (inserter.step s.slots).1)[t']? = some inserter' := h'
    by_cases ht : t = t'
    · subst ht
      rw [List.getElem?_set_self (List.getElem?_eq_some_iff.mp hin).1] at hset
      cases hset
      rw [if_pos rfl]
      exact ⟨inserter, hin, inserter.remaining_step fun i left hp => h.exists_slot hin hp⟩
    · rw [List.getElem?_set_ne ht] at hset
      exact ⟨inserter', hset, by rw [if_neg ht]; omega⟩

theorem Serial.remaining_run {order : List (K × S)} (h : Serial m held s order)
    (schedule : List Nat) {t : Nat} {inserter' : Inserter K S}
    (h' : (s.run schedule).inserters[t]? = some inserter') :
    ∃ inserter, s.inserters[t]? = some inserter ∧
      inserter'.remaining ≤ inserter.remaining - schedule.count t := by
  induction schedule generalizing s order with
  | nil => exact ⟨inserter', h', Nat.le_refl _⟩
  | cons a schedule ih =>
    obtain ⟨order', hnext⟩ := h.step a
    obtain ⟨inserter₁, hin₁, hle₁⟩ := ih hnext h'
    obtain ⟨inserter, hin, hle⟩ := h.sound.remaining_step a hin₁
    refine ⟨inserter, hin, ?_⟩
    rw [List.count_cons]
    by_cases ha : a = t
    · rw [if_pos ha] at hle
      rw [if_pos (by rw [ha]; exact beq_self_eq_true t)]
      omega
    · rw [if_neg ha] at hle
      rw [if_neg (by simpa using ha)]
      omega

/-! ## Runs from the start -/

variable [Word S]

theorem serial_start (h : m.Holds held) (hheld : ∀ e ∈ held, e.1 ≠ JoinKey.reserved K)
    (hentries : ∀ e ∈ entries, e.1 ≠ JoinKey.reserved K) :
    Serial m held (start m entries) [] := by
  have hclaims : (start m entries).claims = [] := by
    refine List.filterMap_eq_nil_iff.mpr fun inserter hmem => ?_
    obtain ⟨e, -, rfl⟩ := List.mem_map.mp hmem
    rfl
  refine ⟨by rw [hclaims]; exact .nil, by rwa [List.append_nil], ?_⟩
  constructor
  case keying => rfl
  case size => exact Array.size_map
  case pos => exact h.pos
  case filled => exact hclaims ▸ m.filled_nil
  case shows =>
    intro p slot entry hslot hentry
    have hslot : (m.slots.map Slot.ofEntry?)[p]? = some slot := hslot
    have hentry : m.slots[p]? = some entry := hentry
    rw [Array.getElem?_map, hentry, Option.map_some] at hslot
    cases hslot
    cases entry with
    | none => rfl
    | some e =>
      refine ⟨rfl, hheld e (h.perm.mem_iff.mp ?_), Or.inl rfl⟩
      exact List.mem_filterMap.mpr ⟨some e, Array.mem_toList_iff.mpr
        (Array.mem_of_getElem? hentry), rfl⟩
  case walked =>
    intro inserter hmem
    obtain ⟨e, -, rfl⟩ := List.mem_map.mp hmem
    have hpos := h.pos
    refine ⟨0, ?_, ?_, fun v hv => by cases hv⟩
    · rw [Nat.zero_add, Nat.sub_add_cancel hpos]
      rfl
    · rw [Nat.zero_add]
      exact (Nat.mod_eq_of_lt (Multimap.home_lt hpos e.1)).symm
  case keys =>
    intro inserter hmem
    obtain ⟨e, he, rfl⟩ := List.mem_map.mp hmem
    exact hentries e he

/-- A thread has finished after a step for each slot and one for its row. -/
theorem finished_of_count {schedule : List Nat} (h : Serial m held (start m entries) [])
    (hcount : ∀ t < entries.length, m.capacity + 1 ≤ schedule.count t) :
    ((start m entries).run schedule).Finished := by
  intro inserter' hmem
  obtain ⟨t, ht⟩ := List.mem_iff_getElem?.mp hmem
  obtain ⟨inserter, hin, hle⟩ := h.remaining_run schedule ht
  have hmap : (entries.map (Inserter.start m))[t]? = some inserter := hin
  rw [List.getElem?_map, Option.map_eq_some_iff] at hmap
  obtain ⟨e, he, rfl⟩ := hmap
  have hsteps := hcount t (List.getElem?_eq_some_iff.mp he).1
  have hpos : 0 < m.capacity := h.sound.pos
  have hfirst : (Inserter.start m e).remaining = m.capacity - 1 + 2 := rfl
  exact Inserter.answer?_of_remaining (by omega)

/-- Whatever the schedule, an insert is refused only by a full table.  When all have returned, as
many have returned true as there were free slots, or all.  Each of these has filled a free slot of
its own and no other slot has changed, and a look-up finds their rows and the earlier ones under
equal keys.  The table is one that inserts make one after another, so all this holds again for
further inserts into it. -/
theorem run_inserts {capacity : Nat} (hpos : 0 < capacity) (keying : Keying K)
    {earlier : List (K × S)} (hearlier : ∀ e ∈ earlier, e.1 ≠ JoinKey.reserved K)
    (hentries : ∀ e ∈ entries, e.1 ≠ JoinKey.reserved K) (schedule : List Nat)
    (hm : (Multimap.free capacity keying).insertAll earlier = m)
    (hs : (start m entries).run schedule = s) :
    s.inserters.map Inserter.entry = entries ∧
    ((∀ t < entries.length, capacity + 1 ≤ schedule.count t) → s.Finished) ∧
    (∀ inserter ∈ s.inserters, inserter.answer? = some false →
      ∀ slot ∈ s.slots, slot.key ≠ JoinKey.reserved K) ∧
    (s.Finished →
      s.inserters.countP (·.answer? = some true) = min entries.length (m.capacity - m.len) ∧
      (∀ inserter ∈ s.inserters, inserter.answer? = some true ↔ inserter.claim?.isSome) ∧
      m.Filled s.claims s.settled ∧
      (∃ order, order.Perm (s.claims.map Prod.snd) ∧ s.settled = m.insertAll order) ∧
      (keying.Lawful → ∀ key, (s.settled.find key).Perm
        (((earlier.take capacity ++ s.claims.map Prod.snd).filter
          fun e => keying.equal e.1 key).map Prod.snd))) := by
  obtain ⟨hholds, hcapacity, hkeying⟩ :=
    (Multimap.holds_free (S := S) hpos keying).insertAll hearlier
  have hslots : (Multimap.free capacity keying : Multimap K S).capacity = capacity :=
    Array.size_replicate
  rw [hm, hslots, List.nil_append, List.length_nil, Nat.sub_zero] at hholds
  rw [hm, hslots] at hcapacity
  rw [hm] at hkeying
  have hheld : ∀ e ∈ earlier.take capacity, e.1 ≠ JoinKey.reserved K :=
    fun e he => hearlier e (List.mem_of_mem_take he)
  have hstart := serial_start hholds hheld hentries
  obtain ⟨order, hserial⟩ := hstart.run schedule
  have hsound := hserial.sound
  rw [hs] at hserial hsound
  have hentry : s.inserters.map Inserter.entry = entries := by
    have hmap : (start m entries).inserters.map Inserter.entry = entries := by
      rw [start, List.map_map]
      exact List.map_id entries
    rw [← hs, entries_run, hmap]
  refine ⟨hentry, fun hcount => ?_, fun inserter hmem hanswer slot hslot hfree => ?_,
    fun hdone => ?_⟩
  · rw [← hcapacity] at hcount
    exact hs ▸ finished_of_count hstart hcount
  · obtain ⟨p, hp⟩ := Array.mem_iff_getElem?.mp hslot
    have hnone := hsound.slot_of_free hp hfree
    obtain ⟨e, he⟩ := hsound.full_of_refused hmem hanswer p (Multimap.lt_capacity hnone)
    cases hnone.symm.trans he
  · have hsettled := hsound.settled_eq hdone
    refine ⟨?_, fun inserter hmem => hdone.answer?_iff hmem, ?_, ⟨order, hserial.perm, hsettled⟩,
      fun hlaw key => ?_⟩
    · rw [hserial.countP_eq hholds hdone, ← hentry, List.length_map]
    · rw [hsettled]
      exact hsound.filled
    · have hsame : (m.insertAll order).keying = keying := hsound.filled.keying.trans hkeying
      rw [hsettled, hserial.holds.find (by rwa [hsame]), hsame]
      exact ((hserial.perm.append_left _).filter _).map _

end Runs

/-! Three inserts with the home of an earlier one, of which the second comes too late. -/

def crowdKeying : Keying UInt32 := ⟨Keying.identityHash, Keying.sameKey⟩

def crowd : SharedTable UInt32 UInt32 :=
  (start ((Multimap.free 3 crowdKeying).insertAll [(4, 0)]) [(7, 10), (1, 11), (7, 12)]).run
    [0, 1, 2, 0, 1, 2, 2, 1, 2, 0]

theorem run_inserts_crowd :
    crowd.Finished ∧ crowd.inserters.countP (·.answer? = some true) = 2 ∧
      (crowd.settled.find 7).Perm [10, 12] := by
  have hlaw : crowdKeying.Lawful := fun a b h => by rw [of_decide_eq_true h]
  have hkeys : (4 : UInt32) ≠ JoinKey.reserved UInt32 ∧ (7 : UInt32) ≠ JoinKey.reserved UInt32 ∧
      (1 : UInt32) ≠ JoinKey.reserved UInt32 := by decide
  have hdone : crowd.Finished := by decide +kernel
  obtain ⟨-, -, -, hinserts⟩ := run_inserts (by decide) crowdKeying
    (List.forall_mem_singleton.mpr hkeys.1)
    (by simp [hkeys]) [0, 1, 2, 0, 1, 2, 2, 1, 2, 0] rfl (rfl : _ = crowd)
  obtain ⟨hcount, -, -, -, hfind⟩ := hinserts hdone
  refine ⟨hdone, hcount.trans (by decide +kernel), (hfind hlaw 7).trans ?_⟩
  exact List.Perm.of_eq (by decide +kernel)

end SharedTable
end GridOps
