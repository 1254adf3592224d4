import GridOps.Device.Launch
import GridOps.Proofs.Device.Dispatch
import Mathlib.Algebra.Order.Floor.Div

/-!
The threads of a launch, and how many blocks a launch over items has.

The threads of a grid are numbered from zero without gap or repetition.  A launch over items has the
blocks that the items fill (`forLen_eq`), as long as one more block does not go beyond the range of
a 64-bit word.  Nearer to its end the blocks are not counted, and making the launch stops
(`forLen_of_stops`).
-/

namespace GridOps

/-! ## Numbers of threads -/

namespace Launch

/-- The threads of the grid, block by block. -/
def allThreads (l : Launch) : List Thread := (List.range l.grid.toNat).flatMap l.blockThreads

theorem map_global_blockThreads {l : Launch} {b : Nat} (hb : b < UInt32.size) :
    (l.blockThreads b).map Thread.global = List.range' (b * l.block.toNat) l.block.toNat := by
  rw [blockThreads, List.map_map, List.range'_eq_map_range]
  refine List.map_congr_left (fun t ht => ?_)
  have hblock := l.block.toNat_lt
  have hlane : t < l.block.toNat := List.mem_range.mp ht
  have hsize : UInt32.size = 4294967296 := rfl
  show (UInt32.ofNat b).toNat * l.block.toNat + (UInt32.ofNat t).toNat = b * l.block.toNat + t
  rw [UInt32.toNat_ofNat_of_lt' hb, UInt32.toNat_ofNat_of_lt' (by omega)]

theorem flatMap_range_blocks (n k : Nat) :
    (List.range n).flatMap (fun b => List.range' (b * k) k) = List.range (n * k) := by
  induction n with
  | zero => simp
  | succ n ih =>
    rw [List.range_succ, List.flatMap_append, ih, List.flatMap_singleton, List.range_eq_range',
      List.range_eq_range', Nat.succ_mul]
    have happ := List.range'_append_1 (s := 0) (m := n * k) (n := k)
    simpa using happ

/-- The grid's threads are numbered from zero without gap or repetition. -/
theorem map_global_allThreads (l : Launch) :
    l.allThreads.map Thread.global = List.range l.threads := by
  rw [allThreads, List.map_flatMap, threads, ← flatMap_range_blocks]
  have hblocks : ∀ b ∈ List.range l.grid.toNat, (l.blockThreads b).map Thread.global =
      List.range' (b * l.block.toNat) l.block.toNat := fun b hb =>
    map_global_blockThreads (Nat.lt_trans (List.mem_range.mp hb) l.grid.toNat_lt)
  rw [List.flatMap_def, List.flatMap_def, List.map_congr_left hblocks]

/-! ## One thread per item -/

/-- The launch has blocks, blocks have threads, and there is a thread for each of `len` items. -/
structure Covers (l : Launch) (len : Nat) : Prop where
  block : l.block ≠ 0
  grid : l.grid ≠ 0
  le : len ≤ l.threads

theorem toNat_pos {n : UInt32} (h : n ≠ 0) : 0 < n.toNat :=
  Nat.pos_of_ne_zero fun h0 => h (UInt32.toNat.inj h0)

/-- The fewest blocks with a thread for each of `len` items, and at least one. -/
def blocksFor (len block : Nat) : Nat := max 1 (len ⌈/⌉ block)

theorem blocksFor_le_iff {len block blocks : Nat} (hb : 0 < block) :
    blocksFor len block ≤ blocks ↔ 1 ≤ blocks ∧ len ≤ block * blocks := by
  rw [blocksFor, Nat.max_le, ceilDiv_le_iff_le_mul hb]

theorem blocksFor_pos (len block : Nat) : 0 < blocksFor len block := Nat.le_max_left ..

theorem le_blocksFor_mul {block : Nat} (hb : 0 < block) (len : Nat) :
    len ≤ blocksFor len block * block := by
  rw [Nat.mul_comm]
  exact ((blocksFor_le_iff hb).mp (Nat.le_refl _)).2

/-- One block less would leave items over. -/
theorem blocksFor_mul_lt {len block : Nat} (hb : 0 < block) (hlen : len ≠ 0) :
    blocksFor len block * block < len + block := by
  by_contra hmany
  obtain ⟨fewer, hfewer⟩ := Nat.exists_eq_add_of_le' (blocksFor_pos len block)
  rw [hfewer, Nat.succ_mul] at hmany
  have hroom : len ≤ block * fewer := by
    rw [Nat.mul_comm]
    omega
  have hone : 1 ≤ fewer := Nat.pos_of_ne_zero fun hzero => by
    rw [hzero, Nat.mul_zero] at hroom
    omega
  have hfew := (blocksFor_le_iff hb).mpr ⟨hone, hroom⟩
  omega

/-- If one block more than the items is a size, a launch over items has the blocks that they
fill. -/
theorem forLen_eq {len : UInt64} {block : UInt32} (hb : block ≠ 0)
    (hlen : len.toNat + block.toNat < UInt64.size) :
    forLen len block =
      if blocksFor len.toNat block.toNat < UInt32.size then
        .ok ⟨UInt32.ofNat (blocksFor len.toNat block.toNat), block⟩
      else .error (.gridTooLarge (blocksFor len.toNat block.toNat)) := by
  have hparts : Size.parts len.toNat block.toNat = len.toNat ⌈/⌉ block.toNat := rfl
  unfold forLen
  rw [if_neg hb, Size.countParts_of_lt hlen]
  dsimp only
  rw [hparts, Nat.max_comm, ← blocksFor]
  split
  · rfl
  · rename_i hgrid
    have hmany : len.toNat ⌈/⌉ block.toNat = blocksFor len.toNat block.toNat := by
      have hone : 1 < UInt32.size := by decide
      unfold blocksFor at hgrid ⊢
      omega
    rw [hmany]

/-- Nearer to the top of their range the blocks of a length are not counted. -/
theorem forLen_of_stops {len : UInt64} {block : UInt32}
    (hlen : UInt64.size ≤ len.toNat + block.toNat) :
    forLen len block = .error (.stopped .additionOverflow) := by
  have hword := len.toNat_lt
  have hsize : UInt64.size = 18446744073709551616 := rfl
  have hb : block ≠ 0 := fun hzero => by
    rw [hzero, UInt32.toNat_zero] at hlen
    omega
  unfold forLen
  rw [if_neg hb, Size.countParts_of_le hlen]

/-- Whatever the block, the blocks of a length with room for one more below the top of its range are
counted. -/
theorem forLen_ofNat_eq {len : Nat} {block : UInt32} (hb : block ≠ 0)
    (hlen : len + UInt32.size ≤ UInt64.size) :
    forLen (UInt64.ofNat len) block =
      if blocksFor len block.toNat < UInt32.size then
        .ok ⟨UInt32.ofNat (blocksFor len block.toNat), block⟩
      else .error (.gridTooLarge (blocksFor len block.toNat)) := by
  have hblock := block.toNat_lt
  have hsize : UInt32.size = 4294967296 := rfl
  have hnat : (UInt64.ofNat len).toNat = len := UInt64.toNat_ofNat_of_lt' (by omega)
  have heq := @forLen_eq (UInt64.ofNat len) block hb (by omega)
  rwa [hnat] at heq

theorem forLen_covers {len : UInt64} {block : UInt32} {l : Launch}
    (hlen : len.toNat + block.toNat < UInt64.size) (h : forLen len block = .ok l) :
    l.Covers len.toNat := by
  have hb : block ≠ 0 := fun hzero => by
    rw [forLen, if_pos hzero] at h
    cases h
  rw [forLen_eq hb hlen] at h
  split at h
  · rename_i hgrid
    cases h
    have hnat : (UInt32.ofNat (blocksFor len.toNat block.toNat)).toNat =
        blocksFor len.toNat block.toNat := UInt32.toNat_ofNat_of_lt' hgrid
    refine ⟨hb, fun hzero => ?_, ?_⟩
    · have hpos := blocksFor_pos len.toNat block.toNat
      rw [← hnat, show UInt32.ofNat (blocksFor len.toNat block.toNat) = 0 from hzero] at hpos
      exact absurd hpos (Nat.lt_irrefl 0)
    · rw [threads, hnat]
      exact le_blocksFor_mul (toNat_pos hb) len.toNat
  · cases h

theorem forLen_ofNat_covers {len : Nat} {block : UInt32} {l : Launch}
    (hlen : len + UInt32.size ≤ UInt64.size) (h : forLen (UInt64.ofNat len) block = .ok l) :
    l.Covers len := by
  have hsize : UInt32.size = 4294967296 := rfl
  have hblock := block.toNat_lt
  have hnat : (UInt64.ofNat len).toNat = len := UInt64.toNat_ofNat_of_lt' (by omega)
  rw [← hnat]
  exact forLen_covers (by omega) h

/-- A grid holds `UInt32.size - 1` blocks, so it has room for as many items times the block. -/
theorem forLen_isOk (len : UInt64) {block : UInt32} (hb : block ≠ 0)
    (hlen : len.toNat ≤ (UInt32.size - 1) * block.toNat) : ∃ l, forLen len block = .ok l := by
  have hblock : block.toNat ≤ UInt32.size - 1 := Nat.le_sub_one_of_lt block.toNat_lt
  have hmul : (UInt32.size - 1) * block.toNat ≤ (UInt32.size - 1) * (UInt32.size - 1) :=
    Nat.mul_le_mul_left _ hblock
  have hsize : UInt32.size = 4294967296 := rfl
  have hsize64 : UInt64.size = 18446744073709551616 := rfl
  have hfew : blocksFor len.toNat block.toNat ≤ UInt32.size - 1 :=
    (blocksFor_le_iff (toNat_pos hb)).mpr ⟨by decide, by rwa [Nat.mul_comm]⟩
  rw [hsize] at hmul hblock hfew hlen
  rw [forLen_eq hb (by omega), if_pos (by omega)]
  exact ⟨_, rfl⟩

/-- So many items get a launch with a thread for each. -/
theorem exists_forLen_covers {len : Nat} {block : UInt32} (hb : block ≠ 0)
    (hlen : len ≤ (UInt32.size - 1) * block.toNat) :
    ∃ l, forLen (UInt64.ofNat len) block = .ok l ∧ l.Covers len := by
  have hblock : (UInt32.size - 1) * block.toNat ≤ (UInt32.size - 1) * (UInt32.size - 1) :=
    Nat.mul_le_mul_left _ (Nat.le_sub_one_of_lt block.toNat_lt)
  have hsize : UInt32.size = 4294967296 := rfl
  have hsize64 : UInt64.size = 18446744073709551616 := rfl
  have hbound := Nat.le_trans hlen hblock
  rw [hsize] at hbound
  have hnat : (UInt64.ofNat len).toNat = len := UInt64.toNat_ofNat_of_lt' (by omega)
  obtain ⟨l, hl⟩ := forLen_isOk (UInt64.ofNat len) hb (by rwa [hnat])
  exact ⟨l, hl, forLen_ofNat_covers (by omega) hl⟩

/-- Every item has a thread with its number, and unless there are no items, fewer threads than a
block has come after the last. -/
structure OnePerItem (l : Launch) (len : Nat) : Prop where
  item : ∀ i < len, ∃ t ∈ l.allThreads, t.global = i
  beyond : len ≠ 0 → l.allThreads.countP (fun t => len ≤ t.global) < l.block.toNat

theorem countP_global_le (l : Launch) {len : Nat} (hlen : len ≤ l.threads) :
    l.allThreads.countP (fun t => len ≤ t.global) = l.threads - len := by
  have hmap : l.allThreads.countP (fun t => len ≤ t.global) =
      (l.allThreads.map Thread.global).countP (len ≤ ·) := by
    rw [List.countP_map]
    rfl
  obtain ⟨more, hmore⟩ := Nat.exists_eq_add_of_le hlen
  have hitems : (List.range len).countP (len ≤ ·) = 0 := by simp [List.countP_eq_zero]
  have hothers : ((List.range more).map (len + ·)).countP (len ≤ ·) = more := by
    simp [List.countP_map, Function.comp_def]
  rw [hmap, map_global_allThreads, hmore, List.range_add, List.countP_append, hitems, hothers]
  omega

theorem Covers.onePerItem {l : Launch} {len : Nat} (h : l.Covers len)
    (hspare : len ≠ 0 → l.threads < len + l.block.toNat) : l.OnePerItem len where
  item := by
    intro i hi
    have hmem : i ∈ l.allThreads.map Thread.global := by
      rw [map_global_allThreads]
      exact List.mem_range.mpr (Nat.lt_of_lt_of_le hi h.le)
    exact List.mem_map.mp hmem
  beyond := by
    intro hlen
    have hless := hspare hlen
    have hle := h.le
    rw [countP_global_le l h.le]
    omega

/-- Lengths that are too near to the top of their range have too many blocks for a grid. -/
theorem blocksFor_of_stops {len : UInt64} {block : UInt32}
    (hlen : UInt64.size ≤ len.toNat + block.toNat) :
    UInt32.size - 1 < blocksFor len.toNat block.toNat := by
  have hword := len.toNat_lt
  have hblock : block.toNat ≤ UInt32.size - 1 := Nat.le_sub_one_of_lt block.toNat_lt
  have hsize : UInt32.size = 4294967296 := rfl
  have hsize64 : UInt64.size = 18446744073709551616 := rfl
  by_contra hfew
  have hitems := ((blocksFor_le_iff (by omega)).mp (Nat.le_of_not_lt hfew)).2
  have hmul : block.toNat * (UInt32.size - 1) ≤ (UInt32.size - 1) * (UInt32.size - 1) :=
    Nat.mul_le_mul_right _ hblock
  rw [hsize] at hmul hitems hblock
  omega

/-- A launch over items with threads in its blocks.  If one block more than the items is a size, the
launch has exactly the blocks that the items fill, and fails if these are more than a 32-bit word
holds.  Then every item has its thread, and not as many as a block has are left over.  Otherwise the
blocks are more than a 32-bit word holds, too, but counting them stops. -/
theorem forLen_outcome (len : UInt64) {block : UInt32} (hb : block ≠ 0) :
    (len.toNat + block.toNat < UInt64.size →
      ((∃ l, forLen len block = .ok l) ↔
        blocksFor len.toNat block.toNat ≤ UInt32.size - 1) ∧
      (UInt32.size - 1 < blocksFor len.toNat block.toNat →
        ∃ e, forLen len block = .error e ∧ e.kind = .integerOverflow) ∧
      ∀ l, forLen len block = .ok l → l.block = block ∧
        l.grid.toNat = blocksFor len.toNat block.toNat ∧ l.OnePerItem len.toNat) ∧
    (UInt64.size ≤ len.toNat + block.toNat →
      UInt32.size - 1 < blocksFor len.toNat block.toNat ∧
      forLen len block = .error (.stopped .additionOverflow)) := by
  have hword : UInt32.size = 4294967296 := rfl
  refine ⟨fun hlen => ?_, fun hstops => ⟨blocksFor_of_stops hstops, forLen_of_stops hstops⟩⟩
  have heq := forLen_eq hb hlen
  refine ⟨⟨fun ⟨l, hl⟩ => ?_, fun hfew => ?_⟩, fun hmany => ?_, fun l hl => ?_⟩
  · rw [heq] at hl
    split at hl
    · omega
    · cases hl
  · rw [if_pos (by omega)] at heq
    exact ⟨_, heq⟩
  · rw [if_neg (by omega)] at heq
    exact ⟨_, heq, rfl⟩
  · have hcovers := forLen_covers hlen hl
    rw [heq] at hl
    split at hl
    · rename_i hgrid
      cases hl
      have hnat : (UInt32.ofNat (blocksFor len.toNat block.toNat)).toNat =
          blocksFor len.toNat block.toNat := UInt32.toNat_ofNat_of_lt' hgrid
      refine ⟨rfl, hnat, hcovers.onePerItem fun hitems => ?_⟩
      rw [threads, hnat]
      exact blocksFor_mul_lt (toNat_pos hb) hitems
    · cases hl

/-- The greatest length whose blocks of the largest size are counted has too many of them; 129 items
have two blocks of 128 threads.  One item more than the first, and counting stops. -/
theorem forLen_outcome_edges :
    (∃ e, forLen 18446744069414584320 4294967295 = .error e ∧ e.kind = .integerOverflow) ∧
      (∃ l, forLen 129 128 = .ok l ∧ l.grid.toNat = 2 ∧ l.OnePerItem 129) ∧
      forLen 18446744069414584321 4294967295 = .error (.stopped .additionOverflow) := by
  have hmany : UInt32.size - 1 < blocksFor 18446744069414584320 4294967295 := by
    rw [blocksFor, Nat.ceilDiv_eq_add_pred_div]
    decide
  have htwo : blocksFor 129 128 = 2 := by
    rw [blocksFor, Nat.ceilDiv_eq_add_pred_div]
    decide
  obtain ⟨-, hfails, -⟩ :=
    (@forLen_outcome 18446744069414584320 4294967295 (by decide)).1 (by decide)
  obtain ⟨hok, -, hgrid⟩ := (@forLen_outcome 129 128 (by decide)).1 (by decide)
  obtain ⟨l, hl⟩ := hok.mpr (by
    show blocksFor 129 128 ≤ _
    rw [htwo]
    decide)
  obtain ⟨-, hblocks, hitems⟩ := hgrid l hl
  have hstops := (@forLen_outcome 18446744069414584321 4294967295 (by decide)).2 (by decide)
  exact ⟨hfails hmany, ⟨l, hl, hblocks.trans htwo, hitems⟩, hstops.2⟩

/-- The longest length has too many blocks of two threads, but that is not what is found: counting
them stops. -/
theorem forLen_of_top_length :
    UInt32.size - 1 < blocksFor (18446744073709551615 : UInt64).toNat (2 : UInt32).toNat ∧
      forLen 18446744073709551615 2 = .error (.stopped .additionOverflow) ∧
      ¬∃ e, forLen 18446744073709551615 2 = .error e ∧ e.kind = .integerOverflow := by
  have hstops : forLen 18446744073709551615 2 = .error (.stopped .additionOverflow) := by decide
  refine ⟨?_, hstops, fun ⟨e, he, hkind⟩ => ?_⟩
  · rw [blocksFor, Nat.ceilDiv_eq_add_pred_div]
    decide
  · rw [hstops] at he
    cases he
    cases hkind

end Launch

end GridOps
