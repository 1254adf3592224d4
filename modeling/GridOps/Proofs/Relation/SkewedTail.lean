import GridOps.Proofs.Join.Reach
import GridOps.Proofs.Join.SingleKey
import GridOps.Relation.DataSet

/-!
A join that its sample underestimates.

Each of the first probe rows of a skewed pair matches one build row, and each of the others the
whole second half of the build relation (`sum_counts`).  The estimate comes from the first of these
two kinds only, so it grows with the probe relation alone, while the result grows with the product
of the lengths (`estimate_lt_joinRows`).
-/

namespace GridOps
namespace SkewedTail

variable {K : Type} [JoinKey K] {build probe : Nat}

/-! ## The join length -/

/-- The number of rows of the join, as a number. -/
def joinRows (build probe : Nat) : Nat := build + (probe - build) * (build - build / 2)

theorem joinLen_eq (hprobe : build < probe) :
    joinLen build probe =
      (Size.mul (probe - build) (build - build / 2) >>= Size.add build) := by
  rw [joinLen, Size.sub_of_le (Nat.div_le_self build 2), Size.sub_of_le (Nat.le_of_lt hprobe)]
  rfl

theorem joinLen_of_lt (hprobe : build < probe) (h : joinRows build probe < UInt64.size) :
    joinLen build probe = .ok (joinRows build probe) := by
  rw [joinLen_eq hprobe, Size.mul_of_lt (Nat.lt_of_le_of_lt (Nat.le_add_left ..) h)]
  exact Size.add_of_lt h

/-- Computing the length of a join of more rows than a size counts stops. -/
theorem joinLen_of_le (hprobe : build < probe) (h : UInt64.size ≤ joinRows build probe) :
    joinLen build probe = .error .multiplicationOverflow ∨
      joinLen build probe = .error .additionOverflow := by
  rw [joinLen_eq hprobe]
  rcases Nat.lt_or_ge ((probe - build) * (build - build / 2)) UInt64.size with hlt | hle
  · rw [Size.mul_of_lt hlt]
    exact .inr (Size.add_of_le h)
  · rw [Size.mul_of_le hle]
    exact .inl rfl

/-! ## Keys -/

/-- The unique keys of the first half. -/
def uniqueKeys (K : Type) [JoinKey K] (build : Nat) : List K :=
  (List.range (build / 2)).map fun i => JoinKey.ofInt (i + 1 : Nat)

def innerKeys (K : Type) [JoinKey K] (build : Nat) : List K :=
  uniqueKeys K build ++ List.replicate (build - build / 2) (JoinKey.ofInt build)

/-- The probe rows that refer to the unique keys. -/
def headKeys (K : Type) [JoinKey K] (build : Nat) : List K :=
  (List.range build).map fun i => JoinKey.ofInt (i % (build / 2) + 1 : Nat)

def outerKeys (K : Type) [JoinKey K] (build probe : Nat) : List K :=
  headKeys K build ++ List.replicate (probe - build) (JoinKey.ofInt build)

def innerSide (K : Type) [JoinKey K] (build : Nat) : KeyColumns K :=
  .ofKeys (innerKeys K build).toArray

def outerSide (K : Type) [JoinKey K] (build probe : Nat) : KeyColumns K :=
  .ofKeys (outerKeys K build probe).toArray

theorem generate_ok (hbuild : 2 ≤ build) (hprobe : build < probe)
    (hkeys : build ≤ (JoinKey.type K).largestKey) :
    generate K build probe =
      .ok ⟨(innerKeys K build).toArray, (outerKeys K build probe).toArray⟩ := by
  unfold generate
  rw [if_neg (by omega), keyOfNat_ok hkeys]
  refine congrArg Except.ok (congrArg₂ RelationPair.mk ?_ ?_) <;>
    exact Array.ext' (by simp [innerKeys, uniqueKeys, outerKeys, headKeys])

theorem length_innerKeys (K : Type) [JoinKey K] (build : Nat) :
    (innerKeys K build).length = build := by
  simp only [innerKeys, uniqueKeys, List.length_append, List.length_map, List.length_range,
    List.length_replicate]
  omega

theorem length_headKeys (K : Type) [JoinKey K] (build : Nat) :
    (headKeys K build).length = build := by
  simp [headKeys]

theorem length_outerKeys (hprobe : build < probe) : (outerKeys K build probe).length = probe := by
  rw [outerKeys, List.length_append, length_headKeys, List.length_replicate]
  omega

theorem len_innerSide (K : Type) [JoinKey K] (build : Nat) : (innerSide K build).len = build :=
  length_innerKeys K build

theorem len_outerSide (hprobe : build < probe) : (outerSide K build probe).len = probe :=
  length_outerKeys hprobe

theorem mem_uniqueKeys_of_head (hbuild : 2 ≤ build) {key : K} (h : key ∈ headKeys K build) :
    key ∈ uniqueKeys K build := by
  obtain ⟨i, -, rfl⟩ := List.mem_map.mp h
  exact List.mem_map.mpr ⟨i % (build / 2),
    List.mem_range.mpr (Nat.mod_lt i (by omega)), rfl⟩

section Counts

variable (hkeys : build ≤ (JoinKey.type K).largestKey)
include hkeys

theorem nodup_uniqueKeys : (uniqueKeys K build).Nodup := by
  refine List.nodup_range.map_on fun i hi j hj hij => ?_
  rw [List.mem_range] at hi hj
  have := (JoinKey.ofNat_inj (by omega) (by omega)).mp hij
  omega

theorem heavy_notMem_uniqueKeys (hbuild : 2 ≤ build) :
    JoinKey.ofInt build ∉ uniqueKeys K build := by
  intro hmem
  obtain ⟨i, hi, heq⟩ := List.mem_map.mp hmem
  rw [List.mem_range] at hi
  have := (JoinKey.ofNat_inj (by omega) hkeys).mp heq
  omega

/-- A unique key matches once. -/
theorem count_of_head (hbuild : 2 ≤ build) {key : K} (h : key ∈ headKeys K build) :
    (innerKeys K build).count key = 1 := by
  have hmem := mem_uniqueKeys_of_head hbuild h
  have hne : key ≠ JoinKey.ofInt build := fun heq =>
    heavy_notMem_uniqueKeys hkeys hbuild (heq ▸ hmem)
  rw [innerKeys, List.count_append, List.count_eq_one_of_mem (nodup_uniqueKeys hkeys) hmem,
    List.count_replicate, if_neg (by simpa using hne.symm)]

/-- The heavy key matches the whole second half. -/
theorem count_heavy (hbuild : 2 ≤ build) :
    (innerKeys K build).count (JoinKey.ofInt build) = build - build / 2 := by
  rw [innerKeys, List.count_append,
    List.count_eq_zero_of_not_mem (heavy_notMem_uniqueKeys hkeys hbuild),
    List.count_replicate_self, Nat.zero_add]

theorem reserved_notMem_innerKeys : JoinKey.reserved K ∉ innerKeys K build := by
  intro hmem
  rcases List.mem_append.mp hmem with hmem | hmem
  · obtain ⟨i, hi, heq⟩ := List.mem_map.mp hmem
    rw [List.mem_range] at hi
    exact JoinKey.ofNat_ne_reserved (by omega) heq
  · exact JoinKey.ofNat_ne_reserved hkeys (List.eq_of_mem_replicate hmem).symm

/-- All matches of the head. -/
theorem sum_counts_head (hbuild : 2 ≤ build) :
    ((headKeys K build).map fun key => (innerKeys K build).count key).sum = build := by
  rw [List.map_congr_left fun key hkey => count_of_head hkeys hbuild hkey, List.map_const',
    List.sum_replicate, smul_eq_mul, Nat.mul_one, length_headKeys]

/-- All matches. -/
theorem sum_counts (hbuild : 2 ≤ build) :
    ((outerKeys K build probe).map fun key => (innerKeys K build).count key).sum =
      joinRows build probe := by
  rw [outerKeys, List.map_append, List.sum_append, sum_counts_head hkeys hbuild,
    List.map_replicate, count_heavy hkeys hbuild, List.sum_replicate, smul_eq_mul, joinRows]

/-- The first rows of the probe relation find their own number, and all of them the join length. -/
theorem length_join (hbuild : 2 ≤ build) (hprobe : build < probe) :
    (NestedLoop.join .inner Keying.sameKey (outerSide K build probe) (innerSide K build)
      build).length = build ∧
    (NestedLoop.join .inner Keying.sameKey (outerSide K build probe) (innerSide K build)
      probe).length = joinRows build probe := by
  have hlen := length_outerKeys (K := K) hprobe
  have hsum : ∀ n ≤ probe, (NestedLoop.join .inner Keying.sameKey (outerSide K build probe)
      (innerSide K build) n).length =
      (((outerKeys K build probe).take n).map fun key => (innerKeys K build).count key).sum :=
    fun n hn => NestedLoop.length_join_ofKeys (show n ≤ (outerKeys K build probe).length by omega)
  rw [hsum build (Nat.le_of_lt hprobe), hsum probe (Nat.le_refl _)]
  constructor
  · rw [outerKeys, List.take_left' (length_headKeys K build)]
    exact sum_counts_head hkeys hbuild
  · rw [List.take_of_length_le (Nat.le_of_eq hlen)]
    exact sum_counts hkeys hbuild

end Counts

/-! ## The estimate -/

/-- Two heavy rows already outweigh the estimate. -/
theorem estimate_lt_joinRows (hbuild : 3 ≤ build) (hlong : 5 * build < probe) :
    build * (probe / build + 1) < joinRows build probe := by
  have hquotient : build * (probe / build) ≤ probe := Nat.mul_div_le probe build
  have hheavy : (probe - build) * 2 ≤ (probe - build) * (build - build / 2) :=
    Nat.mul_le_mul_left _ (by omega)
  rw [joinRows, Nat.mul_add, Nat.mul_one]
  omega

theorem joinRows_lt (hprobe : build < probe) (hrows : probe < UInt32.size) :
    joinRows build probe < UInt64.size := by
  have hheavy : (probe - build) * (build - build / 2) ≤ (probe - build) * build :=
    Nat.mul_le_mul_left _ (Nat.sub_le _ _)
  have hall : build + (probe - build) * build ≤
      (UInt32.size - 1) * (UInt32.size - 1) + UInt32.size := by
    have := Nat.mul_le_mul (show probe - build ≤ UInt32.size - 1 by omega)
      (show build ≤ UInt32.size - 1 by omega)
    omega
  have hmax : (UInt32.size - 1) * (UInt32.size - 1) + UInt32.size < UInt64.size := by decide
  unfold joinRows
  omega

section Join

variable {S : Type} [Word S] {j : HashJoin}

/-- The inner relation is the shorter one, so the table is built over it. -/
theorem probed_built (hprobe : build < probe) :
    j.probed (outerSide K build probe) (innerSide K build) = outerSide K build probe ∧
      j.built (outerSide K build probe) (innerSide K build) = innerSide K build := by
  have hflips : j.flips (outerSide K build probe) (innerSide K build) ≠ true := by
    unfold HashJoin.flips
    rw [len_outerSide hprobe, len_innerSide, decide_eq_false (Nat.not_lt_of_lt hprobe),
      Bool.and_false]
    exact Bool.false_ne_true
  exact ⟨if_neg hflips, if_neg hflips⟩

/-- The default join of such a pair is underestimated. -/
theorem underestimates (hkeys : build ≤ (JoinKey.type K).largestKey) (hbuild : 3 ≤ build)
    (hlong : 5 * build < probe) (hrows : probe < UInt32.size - 1)
    (hwidth : Word.bytes S = 4 ∨ Word.bytes S = 8) (hj : j.toJoinOptions = .default) :
    j.Underestimates S .default (outerSide K build probe) (innerSide K build) build
      (joinRows build probe) := by
  have hprobe : build < probe := by omega
  have hinner := len_innerSide K build
  have houter := len_outerSide (K := K) hprobe
  obtain ⟨hprobed, hbuilt⟩ := probed_built (K := K) (j := j) hprobe
  have htype : j.joinType = .inner := by rw [hj]; rfl
  have hthreshold : j.threshold = 5 := by rw [hj]; rfl
  obtain ⟨hhead, hall⟩ := length_join hkeys (by omega) hprobe
  constructor
  case width => exact hwidth
  case leftRows => rwa [houter]
  case rightRows => rw [hinner]; omega
  case matched => exact KeyColumns.ofKeys_not_mismatched _ _
  case lawful => exact Keying.default_lawful
  case unlimited => rw [hj]; rfl
  case buildRows => rw [hbuilt, hinner]; omega
  case long => rwa [hprobed, hbuilt, houter, hinner, hthreshold]
  case sampled => rwa [hprobed, hbuilt, hinner, htype]
  case some => omega
  case all => rwa [HashJoin.resultRows, List.length_map, hprobed, hbuilt, houter, htype]
  case few => rw [hprobed, hbuilt, houter, hinner]; exact estimate_lt_joinRows hbuild hlong
  case counted => exact joinRows_lt hprobe (by omega)

/-- A buffer for the estimate is one that the host holds. -/
theorem estimateBytes_le (hwidth : Word.bytes S = 4 ∨ Word.bytes S = 8)
    (hprobe : build < probe) (hrows : probe < UInt32.size) :
    build * (probe / build + 1) * Pair.bytes S ≤ maxHostBytes := by
  have hquotient : build * (probe / build) ≤ probe := Nat.mul_div_le probe build
  have hsize : UInt32.size = 4294967296 := rfl
  have hhost : maxHostBytes = 9223372036854775807 := rfl
  have hpair : Pair.bytes S ≤ 16 := by
    unfold Pair.bytes
    omega
  have hmul := Nat.mul_le_mul (show build * (probe / build + 1) ≤ probe + build by
    rw [Nat.mul_add, Nat.mul_one]; omega) hpair
  omega

end Join

/-- Keys that fit the type make a skewed pair, and its join has `joinRows` rows.  This is the join
length that is computed, if it is a size; otherwise computing it stops.  If the probe relation is
long enough to be sampled and 32 bits number its rows, the length is a size.  Then the default join
estimates `build * (probe / build + 1)` rows in one round, which is too few from three build rows
on.  So given the memory for it, the first buffer does not hold the result, and a join that returns
has retried. -/
theorem generate_outcome (hbuild : 2 ≤ build) (hprobe : build < probe)
    (hkeys : build ≤ (JoinKey.type K).largestKey) :
    ∃ pair : RelationPair K, generate K build probe = .ok pair ∧
      pair.inner.size = build ∧ pair.outer.size = probe ∧
      (NestedLoop.join .inner Keying.sameKey (.ofKeys pair.outer) (.ofKeys pair.inner)
        probe).length = joinRows build probe ∧
      (joinRows build probe < UInt64.size → joinLen build probe = .ok (joinRows build probe)) ∧
      (UInt64.size ≤ joinRows build probe →
        joinLen build probe = .error .multiplicationOverflow ∨
          joinLen build probe = .error .additionOverflow) ∧
      (3 ≤ build → 5 * build < probe → probe < UInt32.size - 1 →
        joinLen build probe = .ok (joinRows build probe) ∧
        build * (probe / build + 1) < joinRows build probe ∧
        ∀ {S : Type} [Word S] (j : HashJoin) (d : Device),
          Word.bytes S = 4 ∨ Word.bytes S = 8 → j.toJoinOptions = .default → d.RunsAll →
          (j.tableSlots build * Multimap.slotBytes K S + 16 ≤ d.available →
            ∃ (table : Multimap K S) (d₁ : Device),
              j.estimated .default (.ofKeys pair.outer) (.ofKeys pair.inner) d = .ok (some (table,
                ⟨build * (probe / build + 1), ⟨build, probe / build + 1⟩, 1⟩)) d₁ ∧
              ∀ d₂ : Device, d₂.RunsAll →
                build * (probe / build + 1) * Pair.bytes S ≤ d₂.available →
                ∃ d₃, j.attempt false table (.ofKeys pair.outer) (.ofKeys pair.inner)
                  (build * (probe / build + 1)) d₂ = .ok (joinRows build probe, none) d₃) ∧
          ∀ (r : JoinResult S) (d' : Device),
            j.execute .default (.ofKeys pair.outer) (.ofKeys pair.inner) d = .ok r d' →
            r.len = joinRows build probe ∧ r.statistics.estimate? = some
              ⟨build * (probe / build + 1), ⟨build, probe / build + 1⟩, 1⟩ ∧
            0 < r.statistics.retries) := by
  refine ⟨_, generate_ok hbuild hprobe hkeys, length_innerKeys K build, length_outerKeys hprobe,
    (length_join hkeys hbuild hprobe).2, joinLen_of_lt hprobe, joinLen_of_le hprobe,
    fun hthree hlong hrows => ⟨joinLen_of_lt hprobe (joinRows_lt hprobe (by omega)),
      estimate_lt_joinRows hthree hlong, fun {S} _ j d hwidth hj hd => ?_⟩⟩
  have h := underestimates (K := K) hkeys hthree hlong hrows hwidth hj
  obtain ⟨hprobed, hbuilt⟩ := probed_built (K := K) (j := j) hprobe
  have hfirst : HashJoin.firstEstimate
      (j.probed (outerSide K build probe) (innerSide K build)).len
      (j.built (outerSide K build probe) (innerSide K build)).len build =
      ⟨build * (probe / build + 1), ⟨build, probe / build + 1⟩, 1⟩ := by
    rw [hprobed, hbuilt, len_outerSide hprobe, len_innerSide]
    rfl
  constructor
  · intro hfree
    have hnone : JoinKey.reserved K ∉
        (j.built (outerSide K build probe) (innerSide K build)).keys := by
      rw [hbuilt]
      exact fun hmem => reserved_notMem_innerKeys hkeys (List.mem_toArray.mp hmem)
    obtain ⟨table, d₁, d₂, hprepared, hestimated⟩ :=
      h.estimated_eq hnone hd (by rwa [hbuilt, len_innerSide])
    rw [hfirst] at hestimated
    refine ⟨table, d₂, hestimated, fun d₃ hd₃ hfree₃ => ?_⟩
    have hattempt := h.attempt_eq false hprepared hd (estimate_lt_joinRows hthree hlong)
      (estimateBytes_le hwidth hprobe (by omega)) hd₃ hfree₃
    rwa [hprobed, hbuilt] at hattempt
  · intro r d' hexecute
    have hresult := h.execute_ok hd hexecute
    rwa [hfirst] at hresult

def defaultJoin : HashJoin where
  toJoinOptions := .default
  occupancy_pos := by decide
  occupancy_le := by decide
  block_ne := by decide
  threshold_ne := by decide

/-- Three build rows and sixteen probe rows: eighteen result rows are expected, and there are
twenty-nine. -/
theorem generate_outcome_three :
    ∃ (pair : RelationPair Int64) (table : Multimap Int64 UInt32) (d₁ d₂ : Device),
      generate Int64 3 16 = .ok pair ∧
      defaultJoin.estimated .default (.ofKeys pair.outer) (.ofKeys pair.inner) (.backwards 1000) =
        .ok (some (table, ⟨18, ⟨3, 6⟩, 1⟩)) d₁ ∧
      defaultJoin.attempt false table (.ofKeys pair.outer) (.ofKeys pair.inner) 18
        (.forwards 144) = .ok (29, none) d₂ := by
  have hbuild : 2 ≤ 3 := by decide
  have hprobe : 3 < 16 := by decide
  have hkeys : 3 ≤ (JoinKey.type Int64).largestKey := by decide
  obtain ⟨pair, hpair, -, -, -, -, -, hjoin⟩ := generate_outcome hbuild hprobe hkeys
  obtain ⟨table, d₁, hestimated, hattempt⟩ := ((hjoin (by decide) (by decide) (by decide)).2.2
    (S := UInt32) defaultJoin (.backwards 1000) (Or.inl rfl) rfl
    (Device.backwards_runsAll 1000)).1 (by decide)
  obtain ⟨d₂, hattempt⟩ :=
    hattempt (.forwards 144) (Device.forwards_oneWorker 144).runsAll (by decide)
  exact ⟨pair, table, d₁, d₂, hpair, hestimated, hattempt⟩

/-- Keys of 64 bits fit both relations, and computing the length of their join stops. -/
theorem joinLen_of_long :
    ∃ pair : RelationPair UInt64, generate UInt64 4294967296 12884901888 = .ok pair ∧
      (NestedLoop.join .inner Keying.sameKey (.ofKeys pair.outer) (.ofKeys pair.inner)
        12884901888).length = 18446744078004518912 ∧
      joinLen 4294967296 12884901888 = .error .multiplicationOverflow := by
  have hbuild : 2 ≤ 4294967296 := by decide
  have hprobe : 4294967296 < 12884901888 := by decide
  have hkeys : 4294967296 ≤ (JoinKey.type UInt64).largestKey := by decide
  exact ⟨_, generate_ok hbuild hprobe hkeys, (length_join hkeys hbuild hprobe).2, by decide⟩

end SkewedTail
end GridOps
