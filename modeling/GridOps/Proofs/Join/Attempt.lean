import GridOps.Proofs.Join.Probe
import GridOps.Proofs.Join.Transpose

/-!
Probing into a buffer, and growing the buffer.

An attempt counts all result rows and returns them if they fit (`attempt_ok`, `attempt_rows`).  The
growth loop is a sequence of attempts: it ends with the first that fits (`grow_ok`), and
`grow_of_fits`, `grow_of_error` and `grow_of_missing` say what it does after each answer of an
attempt.
-/

namespace GridOps
namespace HashJoin

variable {K S : Type} {j : HashJoin} {flip : Bool} {table : Multimap K S}
  {probe build : KeyColumns K}

/-! ## One attempt -/

/-- The bytes that the rows of an attempt's answer take. -/
def answerBytes (S : Type) [Word S] (answer : Nat × Option (Array S)) : Nat :=
  if answer.2.isSome then 2 * answer.1 * Word.bytes S else 0

theorem size_take {pairs : Array (Pair S)} {found : Nat} (h : found ≤ pairs.size) :
    (pairs.take found).size = found := by
  rw [Array.take_eq_extract, Array.size_extract, Nat.sub_zero, Nat.min_eq_left h]

variable [Word S]

theorem finish_balanced (j : HashJoin) (flip : Bool) {slots : Nat} {output : PairBuffer S}
    (hsize : output.pairs.size = slots) :
    DeviceM.Balanced (j.finish flip slots output) (answerBytes S) := by
  unfold finish
  dsimp only
  split
  · rename_i hfits
    refine .map (.mapError (Pair.split_balanced _ _ _)) fun rows => ?_
    rw [size_take (by omega)]
    rfl
  · exact .pure rfl

theorem attempt_balanced (j : HashJoin) (flip : Bool) (table : Multimap K S)
    (probe build : KeyColumns K) (slots : Nat) :
    DeviceM.Balanced (j.attempt flip table probe build slots) (answerBytes S) := by
  refine .hold (.mapError (DeviceM.allocate_balanced _ _)) fun _ => ?_
  refine .bind_of (j.prober.materialize_balanced ..) fun d output d' houtput => ?_
  exact j.finish_balanced flip ((Prober.size_materialize houtput).trans Array.size_replicate)

/-- An attempt writes the rows that are found into a buffer of its own, and if they fit, splits
them. -/
theorem attempt_ok {slots : Nat} {d d' : Device} {found : Nat} {rows? : Option (Array S)}
    (h : j.attempt flip table probe build slots d = .ok (found, rows?) d') :
    ∃ output d₁ d₂, d.Became d₁ (slots * Pair.bytes S) ∧ slots * Pair.bytes S ≤ maxHostBytes ∧
      j.prober.materialize table probe build probe.len (Pair.zeros S slots) d₁ = .ok output d₂ ∧
      found = output.cursor.toNat ∧
      ((found ≤ slots ∧ ∃ rows d₃, rows? = some rows ∧
          Pair.split (output.pairs.take found) flip j.block d₂ = .ok rows d₃) ∨
        (slots < found ∧ rows? = none)) := by
  obtain ⟨_, d₁, htake, h⟩ := DeviceM.bind_ok h
  have htake := DeviceM.mapError_ok htake
  obtain ⟨d₅, h, -⟩ := DeviceM.withBytes_ok h
  obtain ⟨output, d₂, houtput, h⟩ := DeviceM.bind_ok h
  refine ⟨output, d₁, d₂, (DeviceM.allocate_balanced _ _).ok htake,
    DeviceM.allocate_le htake, houtput, ?_⟩
  unfold finish at h
  split at h
  · rename_i hfits
    obtain ⟨rows, d₃, hsplit, h⟩ := DeviceM.bind_ok h
    cases h
    exact ⟨rfl, Or.inl ⟨hfits, rows, _, rfl, DeviceM.mapError_ok hsplit⟩⟩
  · rename_i hmissing
    cases h
    exact ⟨rfl, Or.inr ⟨Nat.lt_of_not_le hmissing, rfl⟩⟩

/-- An attempt that fits returns the rows that are found, in an order of the probe rows. -/
theorem attempt_rows (hp : table.Probeable probe build)
    (hrows : (j.prober.emissions table probe build (List.range probe.len)).length < UInt64.size)
    {slots : Nat} {d d' : Device} (hd : d.RunsAll) {found : Nat} {rows : Array S}
    (h : j.attempt flip table probe build slots d = .ok (found, some rows) d') :
    ∃ taken, d.Orders probe.len taken ∧
      found = (j.prober.emissions table probe build taken).length ∧
      rows = (Pair.halves ((j.prober.emissions table probe build taken).map Emit.pairOf).toArray
        flip).toArray := by
  obtain ⟨output, d₁, d₂, hb₁, hhost, houtput, hfound, hcases⟩ := attempt_ok h
  rcases hcases with ⟨hfits, rows', d₃, hsome, hsplit⟩ | ⟨-, hnone⟩
  · cases hsome
    have hb₂ := (j.prober.materialize_balanced ..).ok houtput
    obtain ⟨taken, horder, hcursor, htake⟩ :=
      Prober.materialize_ok hp (hd.became hb₁) houtput
    rw [Nat.min_self] at horder
    have hlen := j.prober.length_emissions table probe build horder
    have hcount : found = (j.prober.emissions table probe build taken).length := by
      rw [hfound, hcursor, UInt64.toNat_ofNat_of_lt' (by omega)]
    refine ⟨taken, horder.of_became hb₁, hcount, ?_⟩
    -- A pair has bytes, so a buffer that the host holds has fewer slots than a cursor counts.
    have hslots : slots * 1 ≤ slots * Pair.bytes S :=
      Nat.mul_le_mul_left slots (Nat.mul_pos Nat.two_pos hp.bytes_pos)
    have hhost64 : maxHostBytes + UInt32.size ≤ UInt64.size := by decide
    have hwritten := (Prober.size_materialize houtput).trans Array.size_replicate
    have hfitting : (output.pairs.take found).size = found := size_take (by omega)
    have hpairs : output.pairs.take found =
        ((j.prober.emissions table probe build taken).map Emit.pairOf).toArray := by
      refine Array.ext' ?_
      rw [Array.take_eq_extract, Array.toList_extract, List.extract_eq_take_drop, List.drop_zero,
        Nat.sub_zero, hcount]
      exact htake (by rw [Pair.zeros, Array.size_replicate]; omega) (by omega)
    rw [Pair.split_ok (hd.became (hb₁.trans hb₂)) (by omega) hsplit, hpairs]
  · cases hnone

/-! ## Growing -/

/-- The limit on result rows, if there is one, allows `rows`. -/
def Allows (j : HashJoin) (rows : Nat) : Prop := ∀ limit, j.maxRows? = some limit → rows ≤ limit

theorem grow_of_fits {left retries slots found : Nat} {rows : Array S} {d d' : Device}
    (h : j.attempt flip table probe build slots d = .ok (found, some rows) d') :
    j.grow flip table probe build left retries slots d = .ok ⟨found, rows, retries, slots⟩ d' := by
  unfold grow
  rw [DeviceM.bind_of_ok h]
  rfl

theorem grow_of_error {left retries slots : Nat} {e : JoinError} {d d' : Device}
    (h : j.attempt flip table probe build slots d = .error e d') :
    j.grow flip table probe build left retries slots d = .error e d' := by
  unfold grow
  rw [DeviceM.bind_of_error h]

theorem checkLimit_cases (j : HashJoin) (found : Nat) :
    (∃ limit, j.maxRows? = some limit ∧ limit < found ∧
      j.checkLimit found = .error (.overLimit found limit)) ∨
    (j.Allows found ∧ j.checkLimit found = .ok ()) := by
  unfold checkLimit Allows
  cases j.maxRows? with
  | none => exact Or.inr ⟨fun _ h => (by cases h), rfl⟩
  | some limit =>
    by_cases hover : limit < found
    · exact Or.inl ⟨limit, rfl, hover, if_pos hover⟩
    · refine Or.inr ⟨fun limit' h => ?_, if_neg hover⟩
      cases h
      exact Nat.le_of_not_lt hover

/-- A buffer that is too small is doubled, unless the limit or the retries are exhausted. -/
theorem grow_of_missing (left retries : Nat) {slots found : Nat} {d d' : Device}
    (h : j.attempt flip table probe build slots d = .ok (found, none) d') :
    (∃ limit, j.maxRows? = some limit ∧ limit < found ∧
      j.grow flip table probe build left retries slots d = .error (.overLimit found limit) d') ∨
    (j.Allows found ∧ j.grow flip table probe build left retries slots d =
      match left with
      | 0 => .error (.retriesExhausted found slots retries) d'
      | left + 1 =>
        if Device.maxBytes < slots * 2 then .error .growthOverflow d'
        else j.grow flip table probe build left (retries + 1) (j.clamp (slots * 2)) d') := by
  rcases j.checkLimit_cases found with ⟨limit, hlimit, hover, hcheck⟩ | ⟨hallows, hcheck⟩
  · refine Or.inl ⟨limit, hlimit, hover, ?_⟩
    unfold grow
    exact (DeviceM.bind_of_ok h).trans
      (DeviceM.bind_of_error (DeviceM.ofExcept_of_error hcheck d'))
  · refine Or.inr ⟨hallows, ?_⟩
    cases left with
    | zero =>
      rw [grow]
      exact (DeviceM.bind_of_ok h).trans (DeviceM.bind_of_ok (DeviceM.ofExcept_of_ok hcheck d'))
    | succ left =>
      rw [grow]
      refine (DeviceM.bind_of_ok h).trans
        ((DeviceM.bind_of_ok (DeviceM.ofExcept_of_ok hcheck d')).trans ?_)
      dsimp only
      split <;> rfl

/-- What a buffer leads to: the end of the join, a result, or a buffer of twice the size. -/
theorem grow_cases (j : HashJoin) (flip : Bool) (table : Multimap K S) (probe build : KeyColumns K)
    (left retries slots : Nat) (d : Device) :
    (∃ e d', d.Became d' 0 ∧
      j.grow flip table probe build left retries slots d = .error e d') ∨
    (∃ found rows d', j.attempt flip table probe build slots d = .ok (found, some rows) d' ∧
      j.grow flip table probe build left retries slots d =
        .ok ⟨found, rows, retries, slots⟩ d') ∨
    (∃ left' d', left = left' + 1 ∧ d.Became d' 0 ∧
      j.grow flip table probe build left retries slots d =
        j.grow flip table probe build left' (retries + 1) (j.clamp (slots * 2)) d') := by
  have hbalanced := j.attempt_balanced flip table probe build slots
  cases hattempt : j.attempt flip table probe build slots d with
  | error e d' => exact Or.inl ⟨e, d', hbalanced.error hattempt, grow_of_error hattempt⟩
  | ok answer d' =>
    obtain ⟨found, _ | rows⟩ := answer
    · have hb : d.Became d' 0 := hbalanced.ok hattempt
      rcases grow_of_missing left retries hattempt with ⟨limit, -, -, hgrow⟩ | ⟨-, hgrow⟩
      · exact Or.inl ⟨_, d', hb, hgrow⟩
      · cases left with
        | zero => exact Or.inl ⟨_, d', hb, hgrow⟩
        | succ left =>
          dsimp only at hgrow
          split at hgrow
          · exact Or.inl ⟨_, d', hb, hgrow⟩
          · exact Or.inr (Or.inr ⟨left, d', rfl, hb, hgrow⟩)
    · exact Or.inr (Or.inl ⟨found, rows, d', rfl, grow_of_fits hattempt⟩)

/-- Growing ends with an attempt that fits. -/
theorem grow_ok {left retries slots : Nat} {f : Found S} {d d' : Device}
    (h : j.grow flip table probe build left retries slots d = .ok f d') :
    ∃ d₁, d.Became d₁ 0 ∧
      j.attempt flip table probe build f.slots d₁ = .ok (f.len, some f.rows) d' := by
  induction left using Nat.strongRecOn generalizing retries slots d with
  | ind left ih =>
    rcases j.grow_cases flip table probe build left retries slots d with
      ⟨e, d₁, -, hgrow⟩ | ⟨found, rows, d₁, hattempt, hgrow⟩ | ⟨left, d₁, rfl, hb, hgrow⟩
    · rw [hgrow] at h
      cases h
    · rw [hgrow] at h
      cases h
      exact ⟨d, .refl d, hattempt⟩
    · rw [hgrow] at h
      obtain ⟨d₂, hb₂, hfits⟩ := ih left (Nat.lt_succ_self left) h
      exact ⟨d₂, hb.trans hb₂, hfits⟩

theorem grow_error {left retries slots : Nat} {e : JoinError} {d d' : Device}
    (h : j.grow flip table probe build left retries slots d = .error e d') : d.Became d' 0 := by
  induction left using Nat.strongRecOn generalizing retries slots d with
  | ind left ih =>
    rcases j.grow_cases flip table probe build left retries slots d with
      ⟨e, d₁, hb, hgrow⟩ | ⟨found, rows, d₁, -, hgrow⟩ | ⟨left, d₁, rfl, hb, hgrow⟩
    · rw [hgrow] at h
      cases h
      exact hb
    · rw [hgrow] at h
      cases h
    · rw [hgrow] at h
      exact hb.trans (ih left (Nat.lt_succ_self left) h)

/-- Whatever the number of retries, growing keeps the memory of the rows and nothing else. -/
theorem grow_balanced (j : HashJoin) (flip : Bool) (table : Multimap K S)
    (probe build : KeyColumns K) (left retries slots : Nat) :
    DeviceM.Balanced (j.grow flip table probe build left retries slots)
      fun f => 2 * f.len * Word.bytes S where
  ok := by
    intro d f d' h
    obtain ⟨d₁, hb, hattempt⟩ := grow_ok h
    have hkept := hb.trans ((j.attempt_balanced flip table probe build f.slots).ok hattempt)
    rwa [Nat.zero_add] at hkept
  error := grow_error

end HashJoin
end GridOps
