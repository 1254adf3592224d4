import GridOps.Device.PrefixSum
import GridOps.Proofs.Device.Plan
import GridOps.Proofs.Device.Settle
import Mathlib.Algebra.GroupWithZero.Nat

/-!
Prefix sums are sums of prefixes.

If the sum of all items fits into a word, the scan writes at every place the sum of the items before
it (`offsets_ok`), whatever the chunks are and in whatever order the threads run.  If it does not
fit, a chunk or the sum of the chunks overflows, and the scan fails (`total_lt_of_offsets`).
-/

namespace GridOps

namespace Word

variable {α : Type} [Word α]

theorem size_pos (α : Type) [Word α] : 0 < size α := by
  rw [size_eq]
  exact Nat.pow_pos (by decide)

theorem toNat_ofNat_of_lt {n : Nat} (h : n < size α) : toNat (ofNat n : α) = n := by
  rw [toNat_ofNat, Nat.mod_eq_of_lt h]

theorem checkedAdd_ofNat {n : Nat} (hn : n < size α) (a : α) :
    checkedAdd (ofNat n) a =
      if n + toNat a < size α then some (ofNat (n + toNat a)) else none := by
  rw [checkedAdd, toNat_ofNat_of_lt hn]

end Word

namespace PrefixSum

variable {α : Type} [Word α]

/-! ## Sums of words -/

/-- The sum of words as a number. -/
def total (items : List α) : Nat := (items.map Word.toNat).sum

@[simp] theorem total_nil : total ([] : List α) = 0 := rfl

@[simp] theorem total_cons (a : α) (rest : List α) :
    total (a :: rest) = Word.toNat a + total rest :=
  List.sum_cons

@[simp] theorem total_append (xs ys : List α) : total (xs ++ ys) = total xs + total ys := by
  simp [total]

theorem total_take_add (items : List α) (m n : Nat) :
    total (items.take (m + n)) = total (items.take m) + total ((items.drop m).take n) := by
  rw [List.take_add, total_append]

theorem total_take_le (items : List α) (n : Nat) : total (items.take n) ≤ total items := by
  have h := total_append (items.take n) (items.drop n)
  rw [List.take_append_drop] at h
  omega

theorem total_map_ofNat {numbers : List Nat} (h : ∀ n ∈ numbers, n < Word.size α) :
    total (numbers.map (Word.ofNat : Nat → α)) = numbers.sum := by
  induction numbers with
  | nil => rfl
  | cons n rest ih =>
    rw [List.map_cons, total_cons, List.sum_cons, Word.toNat_ofNat_of_lt (h n List.mem_cons_self),
      ih fun m hm => h m (List.mem_cons_of_mem n hm)]

/-- Summing with a check succeeds exactly if the type has the sum. -/
theorem foldlM_checkedAdd (items : List α) {n : Nat} (hn : n < Word.size α) :
    items.foldlM Word.checkedAdd (Word.ofNat n : α) =
      if n + total items < Word.size α then some (Word.ofNat (n + total items)) else none := by
  induction items generalizing n with
  | nil =>
    rw [total_nil, Nat.add_zero, if_pos hn]
    rfl
  | cons a rest ih =>
    rw [List.foldlM_cons, Word.checkedAdd_ofNat hn, total_cons, ← Nat.add_assoc]
    by_cases hnext : n + Word.toNat a < Word.size α
    · rw [if_pos hnext]
      exact ih hnext
    · rw [if_neg hnext, if_neg (by omega)]
      rfl

theorem checkedSum_eq (items : List α) :
    checkedSum items =
      if total items < Word.size α then some (Word.ofNat (total items)) else none := by
  rw [checkedSum, foldlM_checkedAdd items (Word.size_pos α), Nat.zero_add]

/-- The running sums behind `n` are the sums of the prefixes, if the type has the last of them. -/
theorem runningSums_eq (items : List α) {n : Nat} (hn : n < Word.size α) :
    runningSums items (Word.ofNat n) =
      if n + total items < Word.size α then
        some ((List.range items.length).map fun i => Word.ofNat (n + total (items.take i)),
          Word.ofNat (n + total items))
      else none := by
  induction items generalizing n with
  | nil =>
    rw [total_nil, Nat.add_zero, if_pos hn]
    rfl
  | cons a rest ih =>
    rw [runningSums, Word.checkedAdd_ofNat hn, total_cons, ← Nat.add_assoc]
    by_cases hnext : n + Word.toNat a < Word.size α
    · rw [if_pos hnext]
      change ((runningSums rest (Word.ofNat (n + Word.toNat a))).bind _) = _
      rw [ih hnext]
      by_cases hall : n + Word.toNat a + total rest < Word.size α
      · rw [if_pos hall, if_pos hall, List.length_cons, List.range_succ_eq_map]
        simp [Function.comp_def, Nat.add_assoc]
      · rw [if_neg hall, if_neg hall]
        rfl
    · rw [if_neg hnext, if_neg (by omega)]
      rfl

/-! ## Chunks -/

/-- The lengths for which the chunks and the blocks of their grid are counted. -/
structure Suits (p : PrefixSum) (len : Nat) : Prop where
  chunk : 0 < p.chunk.toNat
  rounding : len + p.chunk.toNat < UInt64.size
  grid : len + UInt32.size ≤ UInt64.size

variable {p : PrefixSum} {len : Nat}

/-- The default suits any number of items that the host can hold. -/
theorem default_suits (h : len ≤ maxHostBytes) : PrefixSum.default.Suits len := by
  have hchunk : PrefixSum.default.chunk.toNat = 256 := rfl
  have hsize : UInt32.size = 4294967296 := rfl
  have hword : UInt64.size = 18446744073709551616 := rfl
  unfold maxHostBytes at h
  constructor <;> omega

theorem chunks_le (hp : p.Suits len) : p.chunks len ≤ len := by
  have hpos := hp.chunk
  have hmul : len ≤ p.chunk.toNat * len := Nat.le_mul_of_pos_left len hpos
  rw [chunks, Size.parts]
  refine Nat.le_of_lt_succ (Nat.div_lt_of_lt_mul ?_)
  rw [Nat.mul_succ]
  omega

/-- Every item is in a chunk. -/
theorem div_lt_chunks (hp : p.Suits len) {i : Nat} (hi : i < len) :
    i / p.chunk.toNat < p.chunks len := by
  have hpos := hp.chunk
  rw [chunks, Size.parts, Nat.div_lt_iff_lt_mul hpos]
  have hdiv := Nat.div_add_mod (len + p.chunk.toNat - 1) p.chunk.toNat
  have hmod := Nat.mod_lt (len + p.chunk.toNat - 1) hpos
  rw [Nat.mul_comm] at hdiv
  omega

variable {input : Array α}

omit [Word α] in
theorem chunkItems_eq (p : PrefixSum) (input : Array α) (c : Nat) :
    p.chunkItems input c = (input.toList.drop (c * p.chunk.toNat)).take p.chunk.toNat := by
  rw [chunkItems, Array.toList_extract, List.extract_eq_take_drop, Nat.add_sub_cancel_left]

/-- The sum behind a chunk is at most the sum of all. -/
theorem total_take_add_chunkItems_le (p : PrefixSum) (input : Array α) (c : Nat) :
    total (input.toList.take (c * p.chunk.toNat)) + total (p.chunkItems input c) ≤
      total input.toList := by
  rw [chunkItems_eq, ← total_take_add]
  exact total_take_le _ _

/-- The sums of the first chunks make up the sum of the items in them. -/
theorem sum_chunks (p : PrefixSum) (input : Array α) (c : Nat) :
    ((List.range c).map fun i => total (p.chunkItems input i)).sum =
      total (input.toList.take (c * p.chunk.toNat)) := by
  induction c with
  | zero => simp
  | succ c ih =>
    rw [List.range_succ, List.map_append, List.sum_append, ih, Nat.succ_mul, total_take_add,
      ← chunkItems_eq]
    simp

omit [Word α] in
/-- All chunks together hold all items. -/
theorem take_chunks (hp : p.Suits input.size) :
    input.toList.take (p.chunks input.size * p.chunk.toNat) = input.toList := by
  refine List.take_of_length_le ?_
  have hpos := hp.chunk
  rw [Array.length_toList, chunks, Size.parts]
  have hdiv := Nat.div_add_mod (input.size + p.chunk.toNat - 1) p.chunk.toNat
  have hmod := Nat.mod_lt (input.size + p.chunk.toNat - 1) hpos
  rw [Nat.mul_comm] at hdiv
  omega

/-! ## Summing the chunks -/

/-- The sums of the chunks, in words. -/
def chunkSums (p : PrefixSum) (input : Array α) : List α :=
  (List.range (p.chunks input.size)).map fun c => Word.ofNat (total (p.chunkItems input c))

/-- If no chunk overflows, a launch sums each of them. -/
theorem launch_aggregate {l : Launch} {d : Device} (hl : l.Covers (p.chunks input.size))
    (hd : d.RunsGrid)
    (hsum : ∀ c < p.chunks input.size, total (p.chunkItems input c) < Word.size α) :
    DeviceM.launch "chunk_aggregate" l (p.aggregateKernel input (p.chunks input.size))
      (0, Array.replicate (p.chunks input.size) (Word.ofNat 0)) d =
      .ok (0, (p.chunkSums input).toArray) { d with launches := d.launches + 1 } := by
  let writer : Kernel (Array α) := fun t =>
    if t.global < p.chunks input.size then
      scatter t.global (Word.ofNat (total (p.chunkItems input t.global)))
    else pure ()
  have hkernel : ∀ t, p.aggregateKernel input (p.chunks input.size) t = onSecond (writer t) := by
    intro t
    unfold aggregateKernel writer
    dsimp only
    by_cases ht : t.global < p.chunks input.size
    · rw [if_pos ht, if_pos ht, checkedSum_eq, if_pos (hsum _ ht)]
    · rw [if_neg ht, if_neg ht]
      rfl
  have hlength : (p.chunkSums input).length = p.chunks input.size := by simp [chunkSums]
  refine DeviceM.launch_onSecond hkernel (DeviceM.launch_cells "chunk_aggregate" (p.chunkSums input)
    (hlength ▸ hl) hd (fun t x hx => ?_) (fun t ht => ?_) ?_) 0
  · obtain ⟨ht, rfl⟩ := List.getElem?_eq_some_iff.mp hx
    rw [hlength] at ht
    simp [writer, ht, chunkSums]
  · exact if_neg (Nat.not_lt_of_le (hlength ▸ ht))
  · rw [Array.size_replicate, hlength]

/-- The sum of a chunk overflows. -/
def overflows (p : PrefixSum) (input : Array α) (c : Nat) : Bool :=
  decide (Word.size α ≤ total (p.chunkItems input c))

/-- What the thread of chunk `c` does. -/
def sumChunk (p : PrefixSum) (input : Array α) (c : Nat) (s : UInt64 × Array α) :
    UInt64 × Array α :=
  (if p.overflows input c then s.1 + 1 else s.1,
    s.2.setIfInBounds c
      (if p.overflows input c then Word.ofNat 0 else Word.ofNat (total (p.chunkItems input c))))

theorem aggregateKernel_eq (p : PrefixSum) (input : Array α) {chunks : Nat} (t : Thread)
    {s : UInt64 × Array α} (hs : s.2.size = chunks) :
    p.aggregateKernel input chunks t s =
      .ok () (if t.global < chunks then p.sumChunk input t.global s else s) := by
  obtain ⟨n, sums⟩ := s
  unfold aggregateKernel sumChunk overflows
  by_cases ht : t.global < chunks
  · have hs : t.global < sums.size := hs ▸ ht
    have hwrite : ∀ (count : UInt64) (x : α), onSecond (scatter t.global x) (count, sums) =
        .ok () (count, sums.setIfInBounds t.global x) := by
      intro count x
      unfold onSecond
      dsimp only
      rw [scatter, dif_pos hs, Array.setIfInBounds_def, dif_pos hs]
    dsimp only
    rw [if_pos ht, if_pos ht, checkedSum_eq]
    by_cases hsum : total (p.chunkItems input t.global) < Word.size α
    · rw [if_pos hsum, decide_eq_false (Nat.not_le_of_lt hsum)]
      exact hwrite n _
    · rw [if_neg hsum, decide_eq_true (Nat.le_of_not_lt hsum)]
      exact hwrite (n + 1) _
  · rw [if_neg ht, if_neg ht]
    rfl

theorem foldl_sumChunk_fst (rows : List Nat) (s : UInt64 × Array α) :
    (rows.foldl (fun s c => p.sumChunk input c s) s).1 =
      s.1 + UInt64.ofNat (rows.countP (p.overflows input)) := by
  induction rows generalizing s with
  | nil => exact (UInt64.add_zero s.1).symm
  | cons c rest ih =>
    rw [List.foldl_cons, ih]
    by_cases hc : p.overflows input c
    · have hfirst : (p.sumChunk input c s).1 = s.1 + 1 := if_pos hc
      rw [hfirst, List.countP_cons_of_pos hc, UInt64.ofNat_add, UInt64.add_assoc,
        UInt64.add_comm (UInt64.ofNat _) (UInt64.ofNat 1)]
      rfl
    · have hfirst : (p.sumChunk input c s).1 = s.1 := if_neg hc
      rw [hfirst, List.countP_cons_of_neg hc]

/-- Summing the chunks does not fault. -/
theorem run_aggregate {l : Launch} (hl : l.Covers (p.chunks input.size)) (d : Device) :
    d.run "chunk_aggregate" l (p.aggregateKernel input (p.chunks input.size))
      (0, Array.replicate (p.chunks input.size) (Word.ofNat 0)) =
      (⟨(d.rowOrder l (p.chunks input.size)).foldl (fun s c => p.sumChunk input c s)
        (0, Array.replicate (p.chunks input.size) (Word.ofNat 0)), none⟩,
        { d with launches := d.launches + 1 }) := by
  have hsize : ∀ c (s : UInt64 × Array α), s.2.size = p.chunks input.size →
      (p.sumChunk input c s).2.size = p.chunks input.size := by
    intro c s hs
    rw [sumChunk, Array.size_setIfInBounds, hs]
  exact Device.run_rows "chunk_aggregate"
    (P := fun s : UInt64 × Array α => s.2.size = p.chunks input.size) hl
    (fun t s hs => aggregateKernel_eq p input t hs)
    (fun c s _ hs => hsize c s hs) Array.size_replicate

/-- If each thread runs once and no overflow is counted, no chunk overflows.  There are too few
chunks for the counter to come back to zero. -/
theorem total_chunkItems_lt {l : Launch} {d d' : Device} {sums : Array α} (hp : p.Suits input.size)
    (hl : l.Covers (p.chunks input.size)) (hd : d.RunsAll)
    (h : DeviceM.launch "chunk_aggregate" l (p.aggregateKernel input (p.chunks input.size))
      (0, Array.replicate (p.chunks input.size) (Word.ofNat 0)) d = .ok (0, sums) d') :
    ∀ c < p.chunks input.size, total (p.chunkItems input c) < Word.size α := by
  unfold DeviceM.launch at h
  rw [run_aggregate hl d] at h
  have hcount : ((d.rowOrder l (p.chunks input.size)).foldl (fun s c => p.sumChunk input c s)
      (0, Array.replicate (p.chunks input.size) (Word.ofNat 0))).1 = 0 := by
    injection h with h
    rw [h]
  rw [foldl_sumChunk_fst, UInt64.zero_add, (Device.rowOrder_orders hd hl).perm.countP_eq] at hcount
  -- The counter holds the number of the chunks that overflow modulo 2 ^ 64, and that is more than
  -- there are chunks.
  have hle := List.countP_le_length (p := p.overflows input) (l := List.range (p.chunks input.size))
  rw [List.length_range] at hle
  have hchunks := chunks_le hp
  have hgrid := hp.grid
  have hword : UInt64.size = 18446744073709551616 := rfl
  have hword32 : UInt32.size = 4294967296 := rfl
  have hnone : (List.range (p.chunks input.size)).countP (p.overflows input) = 0 := by
    have htoNat := congrArg UInt64.toNat hcount
    rwa [UInt64.toNat_ofNat_of_lt' (by omega)] at htoNat
  intro c hc
  have hnot := List.countP_eq_zero.mp hnone c (List.mem_range.mpr hc)
  simpa [overflows] using hnot

/-- What the host makes of the sums of all chunks. -/
theorem runningSums_chunkSums (hp : p.Suits input.size)
    (hsum : ∀ c < p.chunks input.size, total (p.chunkItems input c) < Word.size α) :
    runningSums (p.chunkSums input) (Word.ofNat 0) =
      if total input.toList < Word.size α then
        some ((List.range (p.chunks input.size)).map fun c =>
            Word.ofNat (total (input.toList.take (c * p.chunk.toNat))),
          Word.ofNat (total input.toList))
      else none := by
  have hlt : ∀ n ∈ (List.range (p.chunks input.size)).map fun c => total (p.chunkItems input c),
      n < Word.size α := by
    intro n hn
    obtain ⟨c, hc, rfl⟩ := List.mem_map.mp hn
    exact hsum c (List.mem_range.mp hc)
  have hsums : p.chunkSums input = ((List.range (p.chunks input.size)).map fun c =>
      total (p.chunkItems input c)).map Word.ofNat := by
    rw [List.map_map]
    rfl
  have htake : ∀ c ≤ p.chunks input.size, total ((p.chunkSums input).take c) =
      total (input.toList.take (c * p.chunk.toNat)) := by
    intro c hc
    rw [hsums, ← List.map_take, total_map_ofNat fun n hn => hlt n (List.mem_of_mem_take hn),
      ← List.map_take, List.take_range, Nat.min_eq_left hc, sum_chunks]
  have hlength : (p.chunkSums input).length = p.chunks input.size := by simp [chunkSums]
  have hall : total (p.chunkSums input) = total input.toList := by
    have h := htake _ (Nat.le_refl _)
    rwa [take_chunks hp, ← hlength, List.take_length] at h
  rw [runningSums_eq _ (Word.size_pos α), hall, hlength]
  simp only [Nat.zero_add]
  split
  · refine congrArg some (Prod.ext (List.map_congr_left fun c hc => ?_) rfl)
    rw [htake c (Nat.le_of_lt (List.mem_range.mp hc))]
  · rfl

/-- With a sum that the type has, summing the chunks returns the sum before each of them. -/
theorem sumChunks_isOk {l : Launch} {d : Device} (hp : p.Suits input.size)
    (hl : l.Covers (p.chunks input.size)) (hd : d.RunsGrid)
    (hsum : total input.toList < Word.size α) :
    p.sumChunks input l d = .ok (l, ((List.range (p.chunks input.size)).map fun c =>
        Word.ofNat (total (input.toList.take (c * p.chunk.toNat)))).toArray,
      Word.ofNat (total input.toList)) { d with launches := d.launches + 1 } := by
  have hchunk : ∀ c < p.chunks input.size, total (p.chunkItems input c) < Word.size α :=
    fun c _ => Nat.lt_of_le_of_lt
      (Nat.le_trans (Nat.le_add_left ..) (p.total_take_add_chunkItems_le input c)) hsum
  unfold sumChunks
  rw [DeviceM.bind_of_ok (launch_aggregate hl hd hchunk)]
  dsimp only
  rw [if_neg (by simp), runningSums_chunkSums hp hchunk, if_pos hsum]
  rfl

/-- On a device that runs each thread once, the chunks are summed only if the type has the sum. -/
theorem total_lt_of_sumChunks {l : Launch} {d d' : Device} {r : Launch × Array α × α}
    (hp : p.Suits input.size) (hl : l.Covers (p.chunks input.size)) (hd : d.RunsAll)
    (h : p.sumChunks input l d = .ok r d') : total input.toList < Word.size α := by
  obtain ⟨⟨count, sums⟩, d₁, hlaunch, h⟩ := DeviceM.bind_ok h
  dsimp only at h
  by_cases hcount : count ≠ 0
  · rw [if_pos hcount] at h
    cases h
  · rw [if_neg hcount] at h
    rw [Decidable.not_not.mp hcount] at hlaunch
    have hchunk := total_chunkItems_lt hp hl hd hlaunch
    rw [launch_aggregate hl hd.runsGrid hchunk] at hlaunch
    cases hlaunch
    rw [List.toList_toArray, runningSums_chunkSums hp hchunk] at h
    by_cases hsum : total input.toList < Word.size α
    · exact hsum
    · rw [if_neg hsum] at h
      cases h

/-- Summing the chunks fails only for a sum that the type does not have. -/
theorem sumChunks_error {l : Launch} {d d' : Device} {e : DeviceError}
    (hl : l.Covers (p.chunks input.size)) (h : p.sumChunks input l d = .error e d') :
    e = .sumOverflow := by
  rcases DeviceM.bind_error h with hlaunch | ⟨⟨count, sums⟩, d₁, -, h⟩
  · unfold DeviceM.launch at hlaunch
    rw [run_aggregate hl d] at hlaunch
    cases hlaunch
  · dsimp only at h
    by_cases hcount : count ≠ 0
    · rw [if_pos hcount] at h
      cases h
      rfl
    · rw [if_neg hcount] at h
      cases hsums : runningSums sums.toList (Word.ofNat 0) with
      | none =>
        rw [hsums] at h
        cases h
        rfl
      | some r =>
        rw [hsums] at h
        cases h

/-! ## Writing the running sums -/

/-- The sums of the first items, for every number of items below `count`. -/
def sums (items : List α) (count : Nat) : List α :=
  (List.range count).map fun i => Word.ofNat (total (items.take i))

theorem getElem?_sums (items : List α) {count i : Nat} (hi : i < count) :
    (sums items count)[i]? = some (Word.ofNat (total (items.take i))) := by
  simp [sums, hi]

/-- If the type has the sum behind the last item, no addition on the way stops. -/
theorem writeRunning_writes {target items : List α} {i n : Nat}
    (hsum : n + total items < Word.size α)
    (h : ∀ j < items.length, target[i + j]? = some (Word.ofNat (n + total (items.take j)))) :
    Writes target (fun k => i ≤ k ∧ k < i + items.length)
      (writeRunning items i (Word.ofNat n)) := by
  induction items generalizing i n with
  | nil => exact Settles.pure.mono fun k hk => by simp at hk; omega
  | cons a rest ih =>
    rw [total_cons, ← Nat.add_assoc] at hsum
    have hfirst : target[i]? = some (Word.ofNat n) := h 0 (Nat.succ_pos _)
    have hrest : Writes target (fun k => i + 1 ≤ k ∧ k < i + 1 + rest.length)
        (writeRunning rest (i + 1) (Word.ofNat (n + Word.toNat a))) := by
      refine ih hsum fun j hj => ?_
      have hnext := h (j + 1) (Nat.succ_lt_succ hj)
      rw [List.take_succ_cons, total_cons, ← Nat.add_assoc n] at hnext
      rwa [show i + 1 + j = i + (j + 1) by omega]
    unfold writeRunning
    rw [Word.checkedAdd_ofNat (by omega), if_pos (by omega)]
    refine Settles.mono ((scatter_writes hfirst).andThen hrest) fun k hk => ?_
    rw [List.length_cons] at hk
    omega

/-- If the type has the sum of all items, a launch writes at every place the sum of the items before
it. -/
theorem launch_scan {l : Launch} {d : Device} (hp : p.Suits input.size)
    (hl : l.Covers (p.chunks input.size)) (hd : d.RunsGrid)
    (hsum : total input.toList < Word.size α) {output : Array α}
    (houtput : output.size = input.size) :
    DeviceM.launch "chunk_exclusive_scan" l (p.scanKernel input (p.chunks input.size)
      ((List.range (p.chunks input.size)).map fun c =>
        Word.ofNat (total (input.toList.take (c * p.chunk.toNat)))).toArray) output d =
      .ok (sums input.toList input.size).toArray { d with launches := d.launches + 1 } := by
  have hpos := hp.chunk
  have hlength : ∀ c, (p.chunkItems input c).length =
      min p.chunk.toNat (input.size - c * p.chunk.toNat) := by
    intro c
    rw [chunkItems_eq, List.length_take, List.length_drop, Array.length_toList]
  refine DeviceM.launch_writes "chunk_exclusive_scan" (sums input.toList input.size)
    (fun c k => c * p.chunk.toNat ≤ k ∧ k < c * p.chunk.toNat + (p.chunkItems input c).length)
    hl hd (fun t ht => ?_) (fun t ht => ?_) (fun k hk => ?_) ?_
  · unfold scanKernel
    dsimp only
    have hbefore : ((List.range (p.chunks input.size)).map fun c => (Word.ofNat
        (total (input.toList.take (c * p.chunk.toNat))) : α)).toArray[t.global]?.getD
          (Word.ofNat 0) =
        Word.ofNat (total (input.toList.take (t.global * p.chunk.toNat))) := by simp [ht]
    rw [if_pos ht, hbefore]
    have hbehind := Nat.lt_of_le_of_lt (p.total_take_add_chunkItems_le input t.global) hsum
    refine writeRunning_writes hbehind fun j hj => ?_
    rw [hlength] at hj
    rw [getElem?_sums _ (by omega), total_take_add, chunkItems_eq, List.take_take,
      Nat.min_eq_left (by omega)]
  · exact if_neg (Nat.not_lt_of_le ht)
  · simp only [sums, List.length_map, List.length_range] at hk
    refine ⟨k / p.chunk.toNat, div_lt_chunks hp hk, ?_⟩
    have hdiv := Nat.div_add_mod k p.chunk.toNat
    have hmod := Nat.mod_lt k hpos
    rw [Nat.mul_comm] at hdiv
    rw [hlength]
    omega
  · simpa [sums] using houtput

/-! ## Offsets -/

/-- Scanning as one operation that returns the running sums with the sum of all behind them. -/
def scanned (p : PrefixSum) (counts : Array α) : DeviceM DeviceError (Array α) :=
  if counts.isEmpty then pure #[Word.ofNat 0]
  else do
    let (l, before, all) ← p.aggregate counts
    let sums ← DeviceM.launch "chunk_exclusive_scan" l
      (p.scanKernel counts (p.chunks counts.size) before)
      (Array.replicate counts.size (Word.ofNat 0))
    return sums.push all

theorem scan_eq_scanned (p : PrefixSum) (counts : Array α) (d : Device) :
    (match p.scan counts (Array.replicate counts.size (Word.ofNat 0)) d with
      | (.ok total, sums, d) => .ok (sums.push total) d
      | (.error e, _, d) => .error e d) = p.scanned counts d := by
  unfold scan scanned
  rw [if_neg (by simp)]
  by_cases hempty : counts.isEmpty
  · rw [if_pos hempty, if_pos hempty, Array.isEmpty_iff.mp hempty]
    rfl
  · rw [if_neg hempty, if_neg hempty]
    cases haggregate : p.aggregate counts d with
    | error e d₁ => rw [DeviceM.bind_of_error haggregate]
    | ok r d₁ =>
      rw [DeviceM.bind_of_ok haggregate]
      show _ = EStateM.bind (DeviceM.launch _ _ _ _) _ d₁
      unfold EStateM.bind DeviceM.launch
      dsimp only
      cases hrun : d₁.run "chunk_exclusive_scan" r.1
        (p.scanKernel counts (p.chunks counts.size) r.2.1)
        (Array.replicate counts.size (Word.ofNat 0)) with
      | mk result d₂ =>
        obtain ⟨output, e⟩ := result
        cases e <;> rfl

theorem offsets_eq (p : PrefixSum) (counts : Array α) :
    p.offsets counts = (do
      DeviceM.allocate (counts.size + 1) (Word.bytes α)
      DeviceM.keepingBytes ((counts.size + 1) * Word.bytes α) (p.scanned counts)) :=
  congrArg (fun scanning => do
      DeviceM.allocate (counts.size + 1) (Word.bytes α)
      DeviceM.keepingBytes ((counts.size + 1) * Word.bytes α) scanning)
    (funext (scan_eq_scanned p counts))

/-- Chunks that are counted are summed over a grid for them. -/
theorem aggregate_of_suits (hp : p.Suits input.size) :
    p.aggregate input = (do
      let l ← DeviceM.ofExcept (Launch.forLen (UInt64.ofNat (p.chunks input.size)) p.block)
      DeviceM.withCounter do
        DeviceM.allocate (p.chunks input.size) (Word.bytes α)
        DeviceM.withBytes (p.chunks input.size * Word.bytes α) (p.sumChunks input l)) := by
  unfold aggregate
  rw [Size.countParts_of_lt hp.rounding]
  rfl

/-! ## Memory -/

theorem sumChunks_balanced (p : PrefixSum) (input : Array α) (l : Launch) :
    DeviceM.Balanced (p.sumChunks input l) fun _ => 0 := by
  refine (DeviceM.launch_balanced ..).bind fun ⟨overflows, sums⟩ => ?_
  dsimp only
  split
  · exact .fail _
  · split
    · exact .fail _
    · exact .pure rfl

theorem aggregate_balanced (p : PrefixSum) (input : Array α) :
    DeviceM.Balanced (p.aggregate input) fun _ => 0 :=
  (DeviceM.Balanced.ofExcept _).bind fun _ => (DeviceM.Balanced.ofExcept _).bind fun l =>
    DeviceM.withCounter_balanced <|
      (DeviceM.allocate_balanced _ _).hold fun _ => sumChunks_balanced p input l

theorem scanned_balanced (p : PrefixSum) (counts : Array α) :
    DeviceM.Balanced (p.scanned counts) fun _ => 0 := by
  unfold scanned
  split
  · exact .pure rfl
  · exact (aggregate_balanced p counts).bind fun _ => (DeviceM.launch_balanced ..).map fun _ => rfl

/-- The offsets stay on the device. -/
theorem offsets_balanced (p : PrefixSum) (counts : Array α) :
    DeviceM.Balanced (p.offsets counts) fun _ => (counts.size + 1) * Word.bytes α := by
  rw [offsets_eq]
  exact (DeviceM.allocate_balanced _ _).keep fun _ => scanned_balanced p counts

/-! ## What offsets are -/

section Offsets

variable {counts : Array α} {d d' : Device}

theorem aggregate_ok {r : Launch × Array α × α} (hp : p.Suits counts.size)
    (h : p.aggregate counts d = .ok r d') :
    ∃ l d₁ d₂ bytes, l.Covers (p.chunks counts.size) ∧ d.Became d₁ bytes ∧
      p.sumChunks counts l d₁ = .ok r d₂ := by
  rw [aggregate_of_suits hp] at h
  obtain ⟨l, d₀, hl, h⟩ := DeviceM.bind_ok h
  obtain ⟨d₁, d₃, hcounter, h, -⟩ := DeviceM.withCounter_ok h
  obtain ⟨_, d₂, halloc, h⟩ := DeviceM.bind_ok h
  obtain ⟨d₄, h, -⟩ := DeviceM.withBytes_ok h
  have hle := chunks_le hp
  have hgrid := hp.grid
  have hb := (((DeviceM.Balanced.ofExcept _).ok hl).trans hcounter).trans
    ((DeviceM.allocate_balanced _ _).ok halloc)
  exact ⟨l, d₂, d₄, _, Launch.forLen_ofNat_covers (by omega) (DeviceM.ofExcept_ok hl), hb, h⟩

theorem sums_succ (items : List α) :
    sums items (items.length + 1) = sums items items.length ++ [Word.ofNat (total items)] := by
  rw [sums, List.range_succ, List.map_append, List.map_singleton, List.take_length]
  rfl

/-- If the type has the sum of all items, the offset of each item is the sum of the items before it,
and the last offset is the sum of all. -/
theorem offsets_ok {a : Array α} (hp : p.Suits counts.size) (hd : d.RunsGrid)
    (hsum : total counts.toList < Word.size α) (h : p.offsets counts d = .ok a d') :
    a.toList = sums counts.toList (counts.size + 1) := by
  rw [offsets_eq] at h
  obtain ⟨_, d₁, halloc, h⟩ := DeviceM.bind_ok h
  have hd₁ := hd.became ((DeviceM.allocate_balanced _ _).ok halloc)
  have h := DeviceM.keepingBytes_ok h
  unfold scanned at h
  by_cases hempty : counts.isEmpty
  · rw [if_pos hempty] at h
    cases h
    rw [Array.isEmpty_iff.mp hempty]
    rfl
  · rw [if_neg hempty] at h
    obtain ⟨r, d₂, haggregate, h⟩ := DeviceM.bind_ok h
    have hd₂ := hd₁.became ((aggregate_balanced p counts).ok haggregate)
    obtain ⟨l, d₃, d₄, bytes, hl, hb, hsums⟩ := aggregate_ok hp haggregate
    rw [sumChunks_isOk hp hl (hd₁.became hb) hsum] at hsums
    cases hsums
    obtain ⟨written, d₅, hscan, h⟩ := DeviceM.bind_ok h
    rw [launch_scan hp hl hd₂ hsum Array.size_replicate] at hscan
    cases hscan
    cases h
    rw [Array.toList_push, ← Array.length_toList, sums_succ]

/-- On a device that runs each thread once, there are offsets only if the type has the sum. -/
theorem total_lt_of_offsets {a : Array α} (hp : p.Suits counts.size) (hd : d.RunsAll)
    (h : p.offsets counts d = .ok a d') : total counts.toList < Word.size α := by
  rw [offsets_eq] at h
  obtain ⟨_, d₁, halloc, h⟩ := DeviceM.bind_ok h
  have hd₁ := hd.became ((DeviceM.allocate_balanced _ _).ok halloc)
  have h := DeviceM.keepingBytes_ok h
  unfold scanned at h
  by_cases hempty : counts.isEmpty
  · rw [Array.isEmpty_iff.mp hempty]
    exact Word.size_pos α
  · rw [if_neg hempty] at h
    obtain ⟨r, d₂, haggregate, -⟩ := DeviceM.bind_ok h
    obtain ⟨l, d₃, d₄, bytes, hl, hb, hsums⟩ := aggregate_ok hp haggregate
    exact total_lt_of_sumChunks hp hl (hd₁.became hb) hsums

end Offsets

/-! ## How offsets end -/

/-- The plan of `scanned` for `len` items whose sum the type has. -/
def scanPlan (p : PrefixSum) (bytes len : Nat) : Plan Unit :=
  if len = 0 then pure ()
  else do
    Plan.launch (p.chunks len) p.block
    Plan.withCounter do
      Plan.allocate (p.chunks len) bytes
      Plan.hold (p.chunks len * bytes) (pure ())

def offsetsPlan (p : PrefixSum) (bytes len : Nat) : Plan Unit := do
  Plan.allocate (len + 1) bytes
  Plan.hold ((len + 1) * bytes) (p.scanPlan bytes len)

section Follows

variable {counts : Array α} {d : Device}

theorem aggregate_follows (hp : p.Suits counts.size) (hb : p.block ≠ 0) (hd : d.RunsGrid)
    (hsum : total counts.toList < Word.size α) :
    DeviceM.Follows DeviceError.kind (fun _ => ()) (p.aggregate counts) (do
      Plan.launch (p.chunks counts.size) p.block
      Plan.withCounter do
        Plan.allocate (p.chunks counts.size) (Word.bytes α)
        Plan.hold (p.chunks counts.size * Word.bytes α) (pure ())) d := by
  have hle := chunks_le hp
  have hgrid := hp.grid
  rw [aggregate_of_suits hp]
  refine (DeviceM.forLen_follows hb (by omega) d).bind (.ofExcept _) fun l d₁ hl hb₁ => ?_
  have hcovers := Launch.forLen_ofNat_covers (by omega) (DeviceM.ofExcept_ok hl)
  refine DeviceM.withCounter_follows fun d₂ hb₂ => ?_
  refine (DeviceM.allocate_follows _ _ d₂).take (DeviceM.allocate_balanced _ _) fun _ d₃ _ hb₃ => ?_
  have hd₃ := ((hd.became hb₁).became hb₂).became hb₃
  exact .withBytes _ (.of_ok (sumChunks_isOk hp hcovers hd₃ hsum))

theorem scanned_follows (hp : p.Suits counts.size) (hb : p.block ≠ 0) (hd : d.RunsGrid)
    (hsum : total counts.toList < Word.size α) :
    DeviceM.Follows DeviceError.kind (fun _ => ()) (p.scanned counts)
      (p.scanPlan (Word.bytes α) counts.size) d := by
  unfold scanned scanPlan
  by_cases hempty : counts.isEmpty
  · rw [if_pos hempty, if_pos (by simpa using hempty)]
    exact .pure _ _
  · rw [if_neg hempty, if_neg (by simpa using hempty)]
    refine (aggregate_follows hp hb hd hsum).andThen fun r d₁ haggregate => ?_
    have hd₁ := hd.became ((aggregate_balanced p counts).ok haggregate)
    obtain ⟨l, d₂, d₃, bytes, hl, hb₂, hsums⟩ := aggregate_ok hp haggregate
    rw [sumChunks_isOk hp hl (hd.became hb₂) hsum] at hsums
    cases hsums
    exact ⟨_, _, DeviceM.bind_of_ok (launch_scan hp hl hd₁ hsum Array.size_replicate),
      rfl⟩

/-- If the type has the sum of all items, only memory and the grid can be missing. -/
theorem offsets_follows (hp : p.Suits counts.size) (hb : p.block ≠ 0) (hd : d.RunsGrid)
    (hsum : total counts.toList < Word.size α) :
    DeviceM.Follows DeviceError.kind (fun _ => ()) (p.offsets counts)
      (p.offsetsPlan (Word.bytes α) counts.size) d := by
  rw [offsets_eq]
  refine (DeviceM.allocate_follows _ _ d).take (DeviceM.allocate_balanced _ _) fun _ d₁ _ hb₁ => ?_
  exact .keepingBytes _ (scanned_follows hp hb (hd.became hb₁) hsum)

end Follows

/-- The bytes that are taken beside the offsets of `len` items while they are computed. -/
def scanBytes (p : PrefixSum) (bytes len : Nat) : Nat :=
  if len = 0 then 0 else DeviceM.counterBytes + p.chunks len * bytes

theorem offsetsPlan_needs {bytes : Nat} (hp : p.Suits len)
    (hgrid : p.chunks len ≤ (UInt32.size - 1) * p.block.toNat)
    (hhost : (len + 1) * bytes ≤ maxHostBytes) :
    (p.offsetsPlan bytes len).Needs ((len + 1) * bytes + p.scanBytes bytes len) () := by
  refine (Plan.allocate_needs hhost).hold ?_
  unfold scanPlan scanBytes
  by_cases hlen : len = 0
  · rw [if_pos hlen, if_pos hlen]
    exact .pure ()
  · rw [if_neg hlen, if_neg hlen]
    have hchunks : p.chunks len * bytes ≤ maxHostBytes :=
      Nat.le_trans (Nat.mul_le_mul_right bytes (Nat.le_succ_of_le (chunks_le hp))) hhost
    refine ((Plan.launch_needs hgrid).bind (Plan.withCounter_needs
      ((Plan.allocate_needs hchunks).hold (.pure ())))).of_eq ?_
    rw [Nat.zero_max, Nat.add_zero]

end PrefixSum
end GridOps
