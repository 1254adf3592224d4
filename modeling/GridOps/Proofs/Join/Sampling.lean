import GridOps.Proofs.Join.Estimate
import GridOps.Proofs.Join.Failure
import GridOps.Proofs.Join.Filling
import Mathlib.Order.Bounds.Basic

/-!
The outcome of an estimate.

The samples that an estimate may probe are known beforehand: the `k`-th has `2 ^ k` times as many
rows as the build side, at most the whole probe side (`Sample.doubled`).  Counting is exact and
always succeeds, so the estimate ends with the first sample that finds a result row or is the whole
probe side (`extrapolate_doublings`).  The sample and its ratio are halved and doubled each on its
own; that the ratio has come down to one when the sample is the whole probe side is
`Sample.ratio_of_whole`.
-/

namespace GridOps

/-! ## The samples -/

namespace Sample

variable {probeLen buildLen threshold k : Nat}

/-- The sample after `k` doublings. -/
def doubled (probeLen buildLen k : Nat) : Sample :=
  ⟨min probeLen (buildLen * 2 ^ k), max 1 ((probeLen / buildLen + 1) / 2 ^ k)⟩

theorem doubled_pos (hprobe : 0 < probeLen) (hbuild : 0 < buildLen) :
    0 < (doubled probeLen buildLen k).len ∧ 0 < (doubled probeLen buildLen k).ratio := by
  have hlen : 0 < buildLen * 2 ^ k := Nat.mul_pos hbuild (Nat.two_pow_pos k)
  constructor
  · exact Nat.lt_min.mpr ⟨hprobe, hlen⟩
  · exact Nat.lt_of_lt_of_le Nat.one_pos (Nat.le_max_left ..)

theorem first_of_le (h : buildLen = 0 ∨ probeLen ≤ threshold * buildLen) :
    first probeLen buildLen threshold = ⟨probeLen, 1⟩ := by
  refine if_neg fun hsampled => ?_
  rw [Nat.mul_comm threshold] at h
  omega

theorem first_of_lt (hprobe : probeLen ≤ Device.maxBytes) (hbuild : 0 < buildLen)
    (hthreshold : threshold ≠ 0) (h : threshold * buildLen < probeLen) :
    first probeLen buildLen threshold = doubled probeLen buildLen 0 := by
  have hle : buildLen ≤ threshold * buildLen :=
    Nat.le_mul_of_pos_left buildLen (Nat.pos_of_ne_zero hthreshold)
  rw [Nat.mul_comm threshold] at h hle
  rw [first, if_pos ⟨hbuild, by omega, h⟩, doubled, Nat.pow_zero, Nat.mul_one, Nat.div_one,
    Nat.min_eq_right (by omega), Nat.max_eq_right (Nat.le_add_left 1 _)]

theorem double_doubled (probeLen buildLen k : Nat) :
    (doubled probeLen buildLen k).double probeLen = doubled probeLen buildLen (k + 1) := by
  have hlen : buildLen * 2 ^ (k + 1) = 2 * (buildLen * 2 ^ k) := by
    rw [Nat.pow_succ, ← Nat.mul_assoc, Nat.mul_comm]
  have hratio : (probeLen / buildLen + 1) / 2 ^ (k + 1) =
      (probeLen / buildLen + 1) / 2 ^ k / 2 := by
    rw [Nat.pow_succ, Nat.div_div_eq_div_mul]
  rw [double, doubled, doubled, hlen, hratio]
  dsimp only
  congr 1
  · omega
  · omega

theorem len_doubled_eq_iff : (doubled probeLen buildLen k).len = probeLen ↔
    probeLen ≤ buildLen * 2 ^ k := min_eq_left_iff

/-- When the sample has become the whole probe side, its ratio has come down to one. -/
theorem ratio_of_whole (hbuild : 0 < buildLen) (hlt : buildLen < probeLen)
    (hwhole : probeLen ≤ buildLen * 2 ^ k) : (doubled probeLen buildLen k).ratio = 1 := by
  have hquotient : probeLen / buildLen ≤ 2 ^ k := by
    rw [Nat.div_le_iff_le_mul hbuild, Nat.mul_comm]
    omega
  have htwo : 2 ≤ 2 ^ k := by
    cases k with
    | zero => omega
    | succ k =>
      rw [Nat.pow_succ]
      have := Nat.two_pow_pos k
      omega
  have hlast : (probeLen / buildLen + 1) / 2 ^ k ≤ 1 := by
    rw [Nat.div_le_iff_le_mul (Nat.two_pow_pos k)]
    omega
  exact Nat.max_eq_left hlast

end Sample

/-! ## Probing the samples -/

namespace Estimator

/-- On every device that runs each thread once, counting succeeds and gives the numbers `found`. -/
def Counts (count : Nat → DeviceM JoinError UInt64) (found : Nat → Nat) (probeLen : Nat) : Prop :=
  ∀ len ≤ probeLen, ∀ d : Device, d.RunsAll →
    ∃ n d', count len d = .ok n d' ∧ n.toNat = found len ∧ d.Became d' 0

/-- What is estimated after `rounds` samples of which `s` is the last. -/
def answer (found : Nat → Nat) (s : Sample) (rounds : Nat) : Except JoinError Estimate :=
  if Device.maxBytes < found s.len * s.ratio then .error .extrapolationOverflow
  else .ok ⟨found s.len * s.ratio, s, rounds⟩

section Loop

variable {count : Nat → DeviceM JoinError UInt64} {found : Nat → Nat} {probeLen buildLen : Nat}
  {s : Sample} {rest : List Sample} {d : Device}

/-- A sample that finds a row, or that none follows, is the last. -/
theorem extrapolate_stops (rounds : Nat) (hcount : Counts count found probeLen)
    (hlen : s.len ≤ probeLen) (hratio : 0 < s.ratio) (hstop : 0 < found s.len ∨ rest = [])
    (hd : d.RunsAll) :
    ∃ d', extrapolate count s rest rounds d =
      DeviceM.ofExcept (answer found s (rounds + 1)) d' := by
  obtain ⟨n, d', hn, htoNat, -⟩ := hcount s.len hlen d hd
  refine ⟨d', ?_⟩
  unfold extrapolate
  rw [DeviceM.bind_of_ok hn, htoNat, answer]
  by_cases hover : Device.maxBytes < found s.len * s.ratio
  · rw [if_pos hover, if_pos hover]
    rfl
  · rw [if_neg hover, if_neg hover]
    by_cases hpos : 0 < found s.len * s.ratio
    · rw [if_pos hpos]
      rfl
    · have hnone : ¬0 < found s.len := fun hsome => hpos (Nat.mul_pos hsome hratio)
      rw [if_neg hpos, hstop.resolve_left hnone]
      rfl

/-- A sample that finds nothing is followed by the next. -/
theorem extrapolate_passes (next : Sample) (rest : List Sample) (rounds : Nat)
    (hcount : Counts count found probeLen) (hlen : s.len ≤ probeLen) (hnone : found s.len = 0)
    (hd : d.RunsAll) :
    ∃ d', d.Became d' 0 ∧ extrapolate count s (next :: rest) rounds d =
      extrapolate count next rest (rounds + 1) d' := by
  obtain ⟨n, d', hn, htoNat, hb⟩ := hcount s.len hlen d hd
  refine ⟨d', hb, ?_⟩
  rw [extrapolate, DeviceM.bind_of_ok hn, htoNat, hnone, Nat.zero_mul]
  rfl

/-- The numbers of doublings after which an estimate can end: the sample finds a row or is the whole
probe side. -/
def ends (found : Nat → Nat) (probeLen buildLen : Nat) : Set Nat :=
  {k | 0 < found (min probeLen (buildLen * 2 ^ k)) ∨ probeLen ≤ buildLen * 2 ^ k}

variable {fuel k : Nat}

theorem not_mem_ends_iff : k ∉ ends found probeLen buildLen ↔
    found (Sample.doubled probeLen buildLen k).len = 0 ∧
      (Sample.doubled probeLen buildLen k).len < probeLen := by
  have hle : (Sample.doubled probeLen buildLen k).len ≤ probeLen := Nat.min_le_left ..
  have hwhole : (Sample.doubled probeLen buildLen k).len = probeLen ↔ probeLen ≤ buildLen * 2 ^ k :=
    Sample.len_doubled_eq_iff
  show ¬(0 < found (Sample.doubled probeLen buildLen k).len ∨ _) ↔ _
  rw [← hwhole]
  omega

theorem extrapolate_of_mem_ends (hcount : Counts count found probeLen) (hprobe : 0 < probeLen)
    (hbuild : 0 < buildLen) (h : k ∈ ends found probeLen buildLen)
    (hbefore : ∀ i < k, i ∉ ends found probeLen buildLen) (hd : d.RunsAll) :
    ∃ last d', IsLeast (ends found probeLen buildLen) last ∧
      extrapolate count (Sample.doubled probeLen buildLen k)
        (Sample.doublings probeLen fuel (Sample.doubled probeLen buildLen k)) k d =
        DeviceM.ofExcept (answer found (Sample.doubled probeLen buildLen last) (last + 1)) d' := by
  have hstop : 0 < found (Sample.doubled probeLen buildLen k).len ∨
      Sample.doublings probeLen fuel (Sample.doubled probeLen buildLen k) = [] :=
    h.imp_right fun hwhole => Sample.doublings_of_whole _ (Sample.len_doubled_eq_iff.mpr hwhole) _
  obtain ⟨d', hrun⟩ := extrapolate_stops k hcount (Nat.min_le_left ..)
    (Sample.doubled_pos hprobe hbuild).2 hstop hd
  exact ⟨k, d', ⟨h, fun i hi => Nat.le_of_not_lt fun hlt => hbefore i hlt hi⟩, hrun⟩

/-- The estimate ends with the first sample that it can end with. -/
theorem extrapolate_doublings (hcount : Counts count found probeLen) (hprobe : 0 < probeLen)
    (hbuild : 0 < buildLen) (hfuel : probeLen ≤ (Sample.doubled probeLen buildLen k).len + fuel)
    (hbefore : ∀ i < k, i ∉ ends found probeLen buildLen) (hd : d.RunsAll) :
    ∃ last d', IsLeast (ends found probeLen buildLen) last ∧
      extrapolate count (Sample.doubled probeLen buildLen k)
        (Sample.doublings probeLen fuel (Sample.doubled probeLen buildLen k)) k d =
        DeviceM.ofExcept (answer found (Sample.doubled probeLen buildLen last) (last + 1)) d' := by
  -- A sample at least doubles, so the fuel suffices to reach the whole probe side.
  induction fuel generalizing k d with
  | zero =>
    have hend : k ∈ ends found probeLen buildLen := by
      by_contra hpart
      have hlt := (not_mem_ends_iff.mp hpart).2
      omega
    exact extrapolate_of_mem_ends hcount hprobe hbuild hend hbefore hd
  | succ fuel ih =>
    by_cases hend : k ∈ ends found probeLen buildLen
    · exact extrapolate_of_mem_ends hcount hprobe hbuild hend hbefore hd
    · obtain ⟨hnone, hpart⟩ := not_mem_ends_iff.mp hend
      have hpos := (Sample.doubled_pos (k := k) hprobe hbuild).1
      have hnext : Sample.doublings probeLen (fuel + 1) (Sample.doubled probeLen buildLen k) =
          Sample.doubled probeLen buildLen (k + 1) ::
            Sample.doublings probeLen fuel (Sample.doubled probeLen buildLen (k + 1)) := by
        rw [Sample.doublings, if_neg (Nat.ne_of_lt hpart), Sample.double_doubled]
      have hlen : (Sample.doubled probeLen buildLen (k + 1)).len =
          min (2 * (Sample.doubled probeLen buildLen k).len) probeLen := by
        rw [← Sample.double_doubled]
        rfl
      obtain ⟨d₁, hb, hpass⟩ := extrapolate_passes (Sample.doubled probeLen buildLen (k + 1))
        (Sample.doublings probeLen fuel (Sample.doubled probeLen buildLen (k + 1))) k hcount
        (Nat.le_of_lt hpart) hnone hd
      rw [hnext, hpass]
      refine ih (by omega) (fun i hi => ?_) (hd.became hb)
      rcases Nat.lt_or_eq_of_le (Nat.le_of_lt_succ hi) with hlt | rfl
      · exact hbefore i hlt
      · exact hend

end Loop

/-! ## Counting result rows -/

section Counting

variable {K S : Type} [Word S] [JoinKey K] {est : Estimator} {table : Multimap K S}
  {probe build : KeyColumns K} {stored : List Nat} {d : Device}

/-- The number of result rows of the first `len` probe rows. -/
def found (est : Estimator) (table : Multimap K S) (probe build : KeyColumns K) (len : Nat) : Nat :=
  (NestedLoop.join est.prober.joinType table.keying.equal probe build len).length

/-- A complete table over a build side and a probe side that suits it, both of moderate length. -/
structure Estimable (table : Multimap K S) (probe build : KeyColumns K) : Prop where
  compatible : probe.Compatible build
  lawful : table.keying.Lawful
  complete : ∃ stored, table.Stores build.keys stored ∧ stored.Perm (List.range build.len)
  width : 4 ≤ Word.bytes S
  probeRows : probe.len < UInt32.size - 1
  buildRows : build.len < UInt32.size - 1

namespace Estimable

theorem probeable (h : Estimable table probe build) : table.Probeable probe build where
  compatible := h.compatible
  rowsBelow := by
    obtain ⟨stored, hstores, -⟩ := h.complete
    exact hstores.rowsBelow
  size := HashJoin.add_size_le h.probeRows
  probeRows := Nat.lt_of_lt_of_le h.probeRows (Word.size_pred_le_top h.width)
  buildRows := Nat.lt_of_lt_of_le h.buildRows (Word.size_pred_le_top h.width)

/-- A probe emits the rows of the nested loops. -/
theorem length_emissions (h : Estimable table probe build) (est : Estimator) {len : Nat}
    (hlen : len ≤ probe.len) :
    (est.prober.emissions table probe build (List.range len)).length =
      est.found table probe build len := by
  obtain ⟨stored, hstores, hperm⟩ := h.complete
  have hrows := Prober.map_rowOf_emissions_perm (p := est.prober) h.compatible hstores h.lawful
    (Nat.le_of_lt h.probeable.buildRows) hperm hlen (.refl _)
  exact (List.length_map _).symm.trans hrows.length_eq

theorem found_mono (h : Estimable table probe build) (est : Estimator) {len len' : Nat}
    (hle : len ≤ len') (hlen : len' ≤ probe.len) :
    est.found table probe build len ≤ est.found table probe build len' := by
  rw [← h.length_emissions est hlen, ← h.length_emissions est (hle.trans hlen)]
  exact est.prober.length_emissions_le table probe build hle

/-- All result rows together are a number that 64 bits hold. -/
theorem found_le (h : Estimable table probe build) (est : Estimator) :
    est.found table probe build probe.len ≤ Device.maxBytes := by
  obtain ⟨stored, hstores, hperm⟩ := h.complete
  have hlen : stored.length = build.len := by simpa using hperm.length_eq
  have hentries : (stored.filterMap (Multimap.rowEntry (S := S) build.keys)).length ≤ build.len :=
    hlen ▸ List.length_filterMap_le ..
  have hrows := est.prober.length_emissions_le_mul probe build
    (fun key => Nat.le_trans (hstores.holds.length_find_le key) hentries) (List.range probe.len)
  rw [List.length_range, h.length_emissions est (Nat.le_refl _)] at hrows
  have hprobe := h.probeRows
  have hbuild := h.buildRows
  have hsize : UInt32.size = 4294967296 := rfl
  have hmul : probe.len * max build.len 1 ≤ (UInt32.size - 1) * (UInt32.size - 1) :=
    Nat.mul_le_mul (by omega) (by omega)
  exact hrows.trans (hmul.trans (by decide))

theorem counts (h : Estimable table probe build) (hblock : est.prober.block ≠ 0) :
    Counts (est.prober.count table probe build) (est.found table probe build) probe.len := by
  intro len hlen d hd
  have hprobe := h.probeRows
  have hrows : (est.prober.emissions table probe build (List.range probe.len)).length <
      UInt64.size := by
    rw [h.length_emissions est (Nat.le_refl _)]
    exact Nat.lt_of_le_of_lt (h.found_le est) (by decide)
  obtain ⟨n, d', hn⟩ := Prober.probe_isOk (Emit.count_does _) h.probeable hblock (by omega)
    len 0 hd
  refine ⟨n, d', hn, ?_, (est.prober.count_balanced table probe build len).ok hn⟩
  rw [count_toNat h.probeable hrows hd hlen hn, h.length_emissions est hlen]

end Estimable

/-! ## The outcome -/

omit [JoinKey K] in
/-- An estimate with eight free bytes for its counter ends as its samples do. -/
theorem exists_estimate_eq {P : Except JoinError Estimate → Prop} (hprobe : 0 < probe.len)
    (hfree : 8 ≤ d.available) (hd : d.RunsAll)
    (h : ∀ d₁ : Device, d₁.RunsAll → ∃ r d₂, P r ∧
      extrapolate (est.prober.count table probe build)
        (Sample.first probe.len build.len est.threshold)
        (Sample.doublings probe.len probe.len (Sample.first probe.len build.len est.threshold)) 0
        d₁ = DeviceM.ofExcept r d₂) :
    ∃ r d', P r ∧ est.estimate table probe build d = DeviceM.ofExcept r d' := by
  have hroom : d.used + 1 * DeviceM.counterBytes ≤ d.capacity := by
    unfold Device.available at hfree
    unfold DeviceM.counterBytes
    omega
  have htake := DeviceM.reserveItems_isOk (by decide) hroom
  obtain ⟨r, d₂, hr, hrun⟩ := h _ (hd.became ((DeviceM.reserveItems_balanced _ _).ok htake))
  refine ⟨r, d₂.release DeviceM.counterBytes, hr, ?_⟩
  unfold estimate
  rw [if_neg (Nat.ne_of_gt hprobe), DeviceM.bind_of_ok (DeviceM.mapError_of_ok htake)]
  cases r with
  | ok e => exact DeviceM.withBytes_of_ok hrun
  | error e => exact DeviceM.withBytes_of_error hrun

omit [JoinKey K] in
theorem estimate_outOfMemory (hprobe : 0 < probe.len) (hfull : d.available < 8) :
    est.estimate table probe build d = .error (.device (.outOfMemory 8 d.available)) d := by
  unfold estimate
  rw [if_neg (Nat.ne_of_gt hprobe)]
  refine DeviceM.bind_of_error ?_
  unfold DeviceM.mapError DeviceM.reserveItems DeviceM.reserve DeviceM.counterBytes
  rw [if_neg (by decide), if_pos (by omega)]

/-- A probe side that is not long enough to be sampled is counted. -/
theorem estimate_whole (h : Estimable table probe build) (hblock : est.prober.block ≠ 0)
    (hd : d.RunsAll) (hprobe : 0 < probe.len) (hfree : 8 ≤ d.available)
    (hshort : build.len = 0 ∨ probe.len ≤ est.threshold * build.len) :
    ∃ d', est.estimate table probe build d =
      .ok ⟨est.found table probe build probe.len, ⟨probe.len, 1⟩, 1⟩ d' := by
  have hanswer : answer (est.found table probe build) ⟨probe.len, 1⟩ 1 =
      .ok ⟨est.found table probe build probe.len, ⟨probe.len, 1⟩, 1⟩ := by
    have hle := h.found_le est
    rw [answer, Nat.mul_one, if_neg (Nat.not_lt_of_le hle)]
  obtain ⟨r, d', hr, h⟩ := exists_estimate_eq (P := (· = .ok _)) hprobe hfree hd fun d₁ hd₁ => by
    rw [Sample.first_of_le hshort]
    have hlast : Sample.doublings probe.len probe.len ⟨probe.len, 1⟩ = [] :=
      Sample.doublings_of_whole ⟨probe.len, 1⟩ rfl probe.len
    obtain ⟨d₂, hrun⟩ := extrapolate_stops (s := ⟨probe.len, 1⟩) 0 (h.counts hblock)
      (Nat.le_refl _) Nat.one_pos (Or.inr hlast) hd₁
    exact ⟨_, d₂, hanswer, hrun⟩
  rw [hr] at h
  exact ⟨d', h⟩

/-- A long probe side is sampled until a sample finds a row or is the whole side. -/
theorem estimate_sampled (h : Estimable table probe build) (hblock : est.prober.block ≠ 0)
    (ht : est.threshold ≠ 0) (hd : d.RunsAll) (hfree : 8 ≤ d.available) (hbuild : 0 < build.len)
    (hlong : est.threshold * build.len < probe.len) :
    ∃ k d', IsLeast (ends (est.found table probe build) probe.len build.len) k ∧
      est.estimate table probe build d = DeviceM.ofExcept (answer (est.found table probe build)
        (Sample.doubled probe.len build.len k) (k + 1)) d' := by
  have hprobe : 0 < probe.len := Nat.zero_lt_of_lt hlong
  have hword : probe.len ≤ Device.maxBytes := Nat.le_trans (Nat.le_of_lt h.probeRows) (by decide)
  let P : Except JoinError Estimate → Prop := fun r =>
    ∃ k, IsLeast (ends (est.found table probe build) probe.len build.len) k ∧
      r = answer (est.found table probe build) (Sample.doubled probe.len build.len k) (k + 1)
  obtain ⟨r, d', ⟨k, hk, rfl⟩, heq⟩ := exists_estimate_eq (P := P) hprobe hfree hd
    fun d₁ hd₁ => by
      rw [Sample.first_of_lt hword hbuild ht hlong]
      obtain ⟨k, d₂, hk, hrun⟩ := extrapolate_doublings (h.counts hblock) hprobe hbuild
        (Nat.le_add_left probe.len _) (fun i hi => absurd hi (Nat.not_lt_zero i)) hd₁
      exact ⟨_, d₂, ⟨k, hk, rfl⟩, hrun⟩
  exact ⟨k, d', hk, heq⟩

/-- Where the samples end, the answer is zero only if the whole probe side has no result row. -/
theorem answer_ok (h : Estimable table probe build) (hbuild : 0 < build.len)
    (hlt : build.len < probe.len) {k : Nat}
    (hk : k ∈ ends (est.found table probe build) probe.len build.len) {e : Estimate}
    (he : answer (est.found table probe build) (Sample.doubled probe.len build.len k) (k + 1) =
      .ok e) :
    (e.rows = 0 ↔ est.found table probe build probe.len = 0) ∧
      (e.sample.len = probe.len →
        e.sample.ratio = 1 ∧ e.rows = est.found table probe build probe.len) := by
  have hprobe : 0 < probe.len := Nat.zero_lt_of_lt hlt
  have hratio := (Sample.doubled_pos (k := k) hprobe hbuild).2
  have hmono : est.found table probe build (Sample.doubled probe.len build.len k).len ≤
      est.found table probe build probe.len := h.found_mono est (Nat.min_le_left ..) (Nat.le_refl _)
  unfold answer at he
  split at he
  · cases he
  cases he
  constructor
  · dsimp only
    rw [Nat.mul_eq_zero]
    constructor
    · intro hzero
      rcases hk with hfound | hwhole
      · change 0 < est.found table probe build (Sample.doubled probe.len build.len k).len at hfound
        omega
      · rw [Sample.len_doubled_eq_iff.mpr hwhole] at hzero
        omega
    · intro hzero
      omega
  · intro hlen
    have hone := Sample.ratio_of_whole hbuild hlt (Sample.len_doubled_eq_iff.mp hlen)
    refine ⟨hone, ?_⟩
    dsimp only at hlen ⊢
    rw [hone, hlen, Nat.mul_one]

/-- Every estimate of a complete table: without probe rows nothing is estimated, and with less than
eight free bytes there is no room for the counter.  A probe side that is at most `threshold` times
as long as the build side is counted.  Of a longer one samples are probed, each twice as long as the
one before, up to the first that finds a row or is the whole probe side, and its count is multiplied
by its ratio unless 64 bits do not hold the product.  So the estimate is zero exactly if the join is
empty, and exact if the last sample is the whole probe side. -/
theorem estimate_outcome (est : Estimator) (h : Estimable table probe build)
    (hblock : est.prober.block ≠ 0) (ht : est.threshold ≠ 0) (hd : d.RunsAll) :
    (probe.len = 0 → est.estimate table probe build d = .ok .none d) ∧
    (0 < probe.len → d.available < 8 →
      est.estimate table probe build d = .error (.device (.outOfMemory 8 d.available)) d) ∧
    (0 < probe.len → 8 ≤ d.available →
      build.len = 0 ∨ probe.len ≤ est.threshold * build.len →
      ∃ d', est.estimate table probe build d =
        .ok ⟨est.found table probe build probe.len, ⟨probe.len, 1⟩, 1⟩ d') ∧
    (8 ≤ d.available → 0 < build.len → est.threshold * build.len < probe.len →
      ∃ k d', IsLeast (ends (est.found table probe build) probe.len build.len) k ∧
        est.estimate table probe build d = DeviceM.ofExcept (answer (est.found table probe build)
          (Sample.doubled probe.len build.len k) (k + 1)) d') ∧
    ∀ e d', est.estimate table probe build d = .ok e d' →
      (e.rows = 0 ↔ est.found table probe build probe.len = 0) ∧
      (0 < probe.len → e.sample.len = probe.len →
        e.sample.ratio = 1 ∧ e.rows = est.found table probe build probe.len) := by
  have hnone : probe.len = 0 → est.estimate table probe build d = .ok .none d := fun hzero => by
    unfold estimate
    rw [if_pos hzero]
    rfl
  refine ⟨hnone, estimate_outOfMemory, estimate_whole h hblock hd,
    estimate_sampled h hblock ht hd, fun e d' he => ?_⟩
  rcases Nat.eq_zero_or_pos probe.len with hzero | hprobe
  · rw [hnone hzero] at he
    cases he
    refine ⟨iff_of_true rfl ?_, fun hprobe => absurd hprobe (by omega)⟩
    rw [hzero]
    rfl
  rcases Nat.lt_or_ge d.available 8 with hfull | hfree
  · rw [estimate_outOfMemory hprobe hfull] at he
    cases he
  by_cases hshort : build.len = 0 ∨ probe.len ≤ est.threshold * build.len
  · obtain ⟨d₁, hwhole⟩ := estimate_whole h hblock hd hprobe hfree hshort
    rw [hwhole] at he
    cases he
    exact ⟨Iff.rfl, fun _ _ => ⟨rfl, rfl⟩⟩
  · obtain ⟨hsome, hlong⟩ := not_or.mp hshort
    have hbuild := Nat.pos_of_ne_zero hsome
    have hlong := Nat.lt_of_not_le hlong
    have hlt : build.len < probe.len := Nat.lt_of_le_of_lt
      (Nat.le_mul_of_pos_left build.len (Nat.pos_of_ne_zero ht)) hlong
    obtain ⟨k, d₁, hk, hsampled⟩ := estimate_sampled h hblock ht hd hfree hbuild hlong
    rw [hsampled] at he
    obtain ⟨hzero, hexact⟩ := answer_ok h hbuild hlt hk.1 (DeviceM.ofExcept_ok he)
    exact ⟨hzero, fun _ => hexact⟩

end Counting

/-! The first sample of two rows finds nothing, and the second, of four, two rows. -/

def sampledProbe : KeyColumns UInt32 := ⟨#[1, 1, 7, 1, 1, 1, 1, 1, 1], []⟩

def sampledBuild : KeyColumns UInt32 := ⟨#[7, 7], []⟩

def sampledTable : Multimap UInt32 UInt32 := (Multimap.free 4 .default).insertAll [(7, 0), (7, 1)]

def sampling : Estimator := ⟨⟨.inner, 128⟩, 1⟩

theorem sampledTable_estimable : Estimable sampledTable sampledProbe sampledBuild := by
  have hkeys : ∀ e ∈ [((7 : UInt32), (0 : UInt32)), (7, 1)], e.1 ≠ JoinKey.reserved UInt32 :=
    List.forall_iff_forall_mem.mp (by decide)
  obtain ⟨hholds, -, hkeying⟩ :=
    (Multimap.holds_free (by decide : 0 < 4) (.default : Keying UInt32)).insertAll hkeys
  exact {
    compatible := ⟨by simp [sampledProbe], by simp [sampledBuild], rfl, by simp [sampledProbe]⟩
    lawful := by
      show Keying.Lawful ((Multimap.free 4 .default).insertAll [(7, 0), (7, 1)]).keying
      rw [hkeying]
      exact Keying.default_lawful
    complete := ⟨[0, 1], ⟨hholds, by decide⟩, .refl _⟩
    width := by decide
    probeRows := by decide
    buildRows := by decide }

theorem estimate_outcome_sampled :
    ∃ d, sampling.estimate sampledTable sampledProbe sampledBuild (.backwards 1000) =
      .ok ⟨4, ⟨4, 2⟩, 2⟩ d := by
  obtain ⟨-, -, -, hsampled, -⟩ := estimate_outcome sampling sampledTable_estimable
    (by decide) (by decide) (Device.backwards_runsAll 1000)
  obtain ⟨k, d, hk, h⟩ := hsampled (by decide) (by decide) (by decide)
  have hone : IsLeast (ends (sampling.found sampledTable sampledProbe sampledBuild)
      sampledProbe.len sampledBuild.len) 1 := by
    refine ⟨Or.inl (by decide +kernel), fun i hi => Nat.pos_of_ne_zero fun hzero => ?_⟩
    have hfirst : sampling.found sampledTable sampledProbe sampledBuild
        (Sample.doubled sampledProbe.len sampledBuild.len 0).len = 0 ∧
        (Sample.doubled sampledProbe.len sampledBuild.len 0).len < sampledProbe.len := by
      decide +kernel
    exact not_mem_ends_iff.mpr hfirst (hzero ▸ hi)
  obtain rfl := hk.unique hone
  have hanswer : answer (sampling.found sampledTable sampledProbe sampledBuild)
      (Sample.doubled sampledProbe.len sampledBuild.len 1) 2 = .ok ⟨4, ⟨4, 2⟩, 2⟩ := by
    decide +kernel
  rw [hanswer] at h
  exact ⟨d, h⟩

/-- Without probe rows the ratio is not one, though the sample is the whole probe side; and with
seven free bytes there is no estimate, though no product is too large. -/
theorem estimate_exceptions :
    (∃ e d, sampling.estimate sampledTable ⟨#[], []⟩ sampledBuild (.forwards 1000) = .ok e d ∧
      e.sample.len = 0 ∧ e.sample.ratio ≠ 1) ∧
    Estimable sampledTable sampledProbe sampledBuild ∧
    ∃ e d, sampling.estimate sampledTable sampledProbe sampledBuild (.forwards 7) = .error e d ∧
      e.kind = .outOfMemory :=
  ⟨⟨.none, .forwards 1000, rfl, rfl, by decide⟩, sampledTable_estimable, _, _, rfl, rfl⟩

end Estimator
end GridOps
