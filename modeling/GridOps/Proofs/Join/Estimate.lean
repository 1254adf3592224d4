import GridOps.Join.Estimate
import GridOps.Proofs.Join.Probe

/-!
What the estimate of a result's size says.

The estimate is a guess, but it is zero exactly if the result is empty (`estimate_ok`): a sample
that finds a row shows that there is one, and the last sample is the whole probe side.
-/

namespace GridOps

/-! ## Samples -/

namespace Sample

theorem first_pos {probeLen buildLen threshold : Nat} (hprobe : 0 < probeLen) :
    0 < (first probeLen buildLen threshold).len ∧
      0 < (first probeLen buildLen threshold).ratio := by
  unfold first
  split
  · rename_i hsampled
    exact ⟨hsampled.1, Nat.succ_pos _⟩
  · exact ⟨hprobe, Nat.one_pos⟩

theorem first_le {probeLen buildLen threshold : Nat} (ht : threshold ≠ 0) :
    (first probeLen buildLen threshold).len ≤ probeLen := by
  unfold first
  split
  · rename_i hsampled
    exact Nat.le_of_lt (Nat.lt_of_le_of_lt (Nat.le_mul_of_pos_right _ (Nat.pos_of_ne_zero ht))
      hsampled.2.2)
  · exact Nat.le_refl _

/-- Nothing follows a sample that is the whole probe side. -/
theorem doublings_of_whole {probeLen : Nat} (s : Sample) (h : s.len = probeLen) (fuel : Nat) :
    doublings probeLen fuel s = [] := by
  cases fuel with
  | zero => rfl
  | succ fuel => exact if_pos h

end Sample

namespace Estimator

variable {K S : Type} [Word S] {est : Estimator} {table : Multimap K S} {probe build : KeyColumns K}

/-! ## Memory -/

theorem extrapolate_balanced {count : Nat → DeviceM JoinError UInt64}
    (hcount : ∀ len, DeviceM.Balanced (count len) fun _ => 0) (s : Sample) (rest : List Sample)
    (rounds : Nat) : DeviceM.Balanced (extrapolate count s rest rounds) fun _ => 0 := by
  induction rest generalizing s rounds with
  | nil =>
    unfold extrapolate
    refine (hcount s.len).bind fun n => ?_
    dsimp only
    split
    · exact .fail _
    · split <;> exact .pure rfl
  | cons next rest ih =>
    unfold extrapolate
    refine (hcount s.len).bind fun n => ?_
    dsimp only
    split
    · exact .fail _
    · split
      · exact .pure rfl
      · exact ih next (rounds + 1)

theorem estimate_balanced (est : Estimator) (table : Multimap K S) (probe build : KeyColumns K) :
    DeviceM.Balanced (est.estimate table probe build) fun _ => 0 := by
  unfold estimate
  split
  · exact .pure rfl
  · exact .hold (.mapError (DeviceM.reserveItems_balanced 1 DeviceM.counterBytes)) fun _ =>
      extrapolate_balanced (est.prober.count_balanced table probe build) _ _ _

/-! ## Zero -/

/-- A sample ends the estimate, unless it finds nothing and a longer one follows. -/
theorem extrapolate_ok {count : Nat → DeviceM JoinError UInt64} {s : Sample} {rest : List Sample}
    {rounds : Nat} {e : Estimate} {d d' : Device}
    (h : extrapolate count s rest rounds d = .ok e d') :
    ∃ n d₁, count s.len d = .ok n d₁ ∧
      ((e.rows = n.toNat * s.ratio ∧ (0 < e.rows ∨ rest = [])) ∨
        (n.toNat * s.ratio = 0 ∧ ∃ next rest', rest = next :: rest' ∧
          extrapolate count next rest' (rounds + 1) d₁ = .ok e d')) := by
  unfold extrapolate at h
  obtain ⟨n, d₁, hn, h⟩ := DeviceM.bind_ok h
  refine ⟨n, d₁, hn, ?_⟩
  dsimp only at h
  split at h
  · cases h
  · split at h
    · rename_i hpos
      cases h
      exact Or.inl ⟨rfl, Or.inl hpos⟩
    · rename_i hzero
      cases rest with
      | nil =>
        cases h
        exact Or.inl ⟨rfl, Or.inr rfl⟩
      | cons next rest' => exact Or.inr ⟨Nat.eq_zero_of_not_pos hzero, next, rest', rfl, h⟩

theorem count_toNat {p : Prober} (hp : table.Probeable probe build)
    (hrows : (p.emissions table probe build (List.range probe.len)).length < UInt64.size)
    {d d' : Device} (hd : d.RunsAll) {len : Nat} (hlen : len ≤ probe.len) {n : UInt64}
    (h : p.count table probe build len d = .ok n d') :
    n.toNat = (p.emissions table probe build (List.range len)).length := by
  have hprefix := p.length_emissions_le table probe build hlen
  rw [Prober.count_ok hp hd h, Nat.min_eq_left hlen,
    UInt64.toNat_ofNat_of_lt' (by omega)]

theorem extrapolate_whole {p : Prober} (hp : table.Probeable probe build)
    (hrows : (p.emissions table probe build (List.range probe.len)).length < UInt64.size)
    {s : Sample} (hratio : 0 < s.ratio) (hwhole : s.len = probe.len) {rounds : Nat} {e : Estimate}
    {d d' : Device} (hd : d.RunsAll)
    (h : extrapolate (p.count table probe build) s [] rounds d = .ok e d') :
    e.rows = 0 ↔ p.emissions table probe build (List.range probe.len) = [] := by
  obtain ⟨n, d₁, hn, ⟨hrow, -⟩ | ⟨-, next, rest, hrest, -⟩⟩ := extrapolate_ok h
  · rw [hrow, count_toNat hp hrows hd (Nat.le_of_eq hwhole) hn, hwhole, Nat.mul_eq_zero,
      List.length_eq_zero_iff]
    exact or_iff_left (Nat.ne_of_gt hratio)
  · cases hrest

/-- The samples from `s` on find nothing exactly if the whole probe side emits nothing. -/
theorem extrapolate_doublings_ok {p : Prober} (hp : table.Probeable probe build)
    (hrows : (p.emissions table probe build (List.range probe.len)).length < UInt64.size)
    (fuel : Nat) {s : Sample} (hpos : 0 < s.len ∧ 0 < s.ratio) (hle : s.len ≤ probe.len)
    (hfuel : probe.len ≤ s.len + fuel) {rounds : Nat} {e : Estimate} {d d' : Device}
    (hd : d.RunsAll)
    (h : extrapolate (p.count table probe build) s (Sample.doublings probe.len fuel s) rounds d =
      .ok e d') :
    e.rows = 0 ↔ p.emissions table probe build (List.range probe.len) = [] := by
  -- A sample at least doubles, so the fuel suffices to reach the whole probe side.
  induction fuel generalizing s rounds d with
  | zero => exact extrapolate_whole hp hrows hpos.2 (by omega) hd h
  | succ fuel ih =>
    unfold Sample.doublings at h
    split at h
    · rename_i hwhole
      exact extrapolate_whole hp hrows hpos.2 hwhole hd h
    · rename_i hpart
      obtain ⟨n, d₁, hn, hcases⟩ := extrapolate_ok h
      have hb := (p.count_balanced table probe build s.len).ok hn
      rcases hcases with ⟨hrow, hfound | hlast⟩ | ⟨-, next, rest, hrest, h⟩
      · have hcount := count_toNat hp hrows hd hle hn
        have hprefix := p.length_emissions_le table probe build hle
        have hsome : 0 < n.toNat := Nat.pos_of_mul_pos_right (hrow ▸ hfound)
        refine iff_of_false (Nat.ne_of_gt hfound) fun hnil => ?_
        rw [hnil, List.length_nil] at hprefix
        omega
      · cases hlast
      · cases hrest
        refine ih ⟨?_, ?_⟩ ?_ ?_ (hd.became hb) h
        · show 0 < min (2 * s.len) probe.len
          omega
        · show 0 < max (s.ratio / 2) 1
          omega
        · exact Nat.min_le_right ..
        · show probe.len ≤ min (2 * s.len) probe.len + fuel
          omega

/-- The estimate is zero exactly if the probe side emits nothing. -/
theorem estimate_ok (hp : table.Probeable probe build)
    (hrows :
      (est.prober.emissions table probe build (List.range probe.len)).length < UInt64.size)
    (ht : est.threshold ≠ 0) {e : Estimate} {d d' : Device} (hd : d.RunsAll)
    (h : est.estimate table probe build d = .ok e d') :
    e.rows = 0 ↔ est.prober.emissions table probe build (List.range probe.len) = [] := by
  unfold estimate at h
  split at h
  · rename_i hzero
    cases h
    rw [hzero]
    exact ⟨fun _ => rfl, fun _ => rfl⟩
  · rename_i hprobe
    obtain ⟨_, d₁, htake, h⟩ := DeviceM.bind_ok h
    obtain ⟨d₂, h, -⟩ := DeviceM.withBytes_ok h
    have hb := (DeviceM.reserveItems_balanced _ _).ok (DeviceM.mapError_ok htake)
    exact extrapolate_doublings_ok hp hrows probe.len
      (Sample.first_pos (Nat.pos_of_ne_zero hprobe)) (Sample.first_le ht) (Nat.le_add_left ..)
      (hd.became hb) h

end Estimator
end GridOps
