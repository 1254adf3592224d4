import GridOps.Join.HashJoin
import GridOps.Proofs.Join.Build
import GridOps.Proofs.Join.NestedLoop
import Mathlib.Data.List.Perm.Basic

/-!
What a probe emits.

The thread of a probe row emits the rows `emitted` of it, so a probe hands its receiver the rows of
all probe rows in the order in which the threads ran (`probe_ok`).  The counting receiver counts
them, and the writing receiver writes them to the front of its buffer as far as they fit.
-/

namespace GridOps

/-- What receiving a result row does to what the receiver keeps. -/
abbrev Emit.Step (S σ : Type) := Nat → S → σ → σ

/-- Receives `rows` one after the other. -/
def Emit.Step.all {S σ : Type} (step : Emit.Step S σ) (rows : List (Nat × S)) (s : σ) : σ :=
  rows.foldl (fun s row => step row.1 row.2 s) s

namespace Emit

variable {S σ : Type} {emit : Emit S σ} {step : Step S σ}

/-! ## Handing over rows -/

/-- Hands `rows` to a receiver one after the other, up to the first that it faults on. -/
def each (emit : Emit S σ) (rows : List (Nat × S)) : EStateM Fault σ Unit :=
  rows.forM fun row => emit row.1 row.2

theorem each_cons (row : Nat × S) (rest : List (Nat × S)) (s : σ) :
    emit.each (row :: rest) s =
      match emit row.1 row.2 s with
      | .ok _ s => emit.each rest s
      | .error fault s => .error fault s := by
  show EStateM.bind (emit row.1 row.2) (fun _ => emit.each rest) s = _
  rw [EStateM.bind]
  cases emit row.1 row.2 s <;> rfl

theorem each_append (rows more : List (Nat × S)) (s : σ) :
    emit.each (rows ++ more) s =
      match emit.each rows s with
      | .ok _ s => emit.each more s
      | .error fault s => .error fault s := by
  induction rows generalizing s with
  | nil => rfl
  | cons row rest ih =>
    rw [List.cons_append, each_cons, each_cons]
    cases emit row.1 row.2 s with
    | ok _ s => exact ih s
    | error fault s => rfl

/-- Handing over what belongs to each of a list is handing over all of it. -/
theorem forM_each {α : Type} (f : α → List (Nat × S)) (l : List α) (s : σ) :
    l.forM (fun a => emit.each (f a)) s = emit.each (l.flatMap f) s := by
  induction l generalizing s with
  | nil => rfl
  | cons a rest ih =>
    show EStateM.bind (emit.each (f a)) (fun _ => rest.forM fun a => emit.each (f a)) s = _
    rw [List.flatMap_cons, each_append, EStateM.bind]
    cases emit.each (f a) s with
    | ok _ s => exact ih s
    | error fault s => rfl

/-- The receiver does not fault on rows with numbers below `len`, and takes this step for each. -/
def Does (emit : Emit S σ) (step : Step S σ) (len : Nat) : Prop :=
  ∀ row < len, ∀ found s, emit row found s = .ok () (step row found s)

theorem Does.mono {len len' : Nat} (h : emit.Does step len) (hle : len' ≤ len) :
    emit.Does step len' := fun row hrow => h row (Nat.lt_of_lt_of_le hrow hle)

theorem Does.each {len : Nat} (h : emit.Does step len) {rows : List (Nat × S)}
    (hrows : ∀ row ∈ rows, row.1 < len) (s : σ) : emit.each rows s = .ok () (step.all rows s) := by
  induction rows generalizing s with
  | nil => rfl
  | cons row rest ih =>
    obtain ⟨hrow, hrest⟩ := List.forall_mem_cons.mp hrows
    rw [each_cons, h row.1 hrow]
    exact ih hrest _

/-! ## Counting -/

def counting : Step S UInt64 := fun _ _ n => n + 1

theorem count_does (len : Nat) : (count : Emit S UInt64).Does counting len := fun _ _ _ _ => rfl

theorem all_counting (rows : List (Nat × S)) (n : UInt64) :
    counting.all rows n = n + UInt64.ofNat rows.length := by
  induction rows generalizing n with
  | nil => exact (UInt64.add_zero n).symm
  | cons row rest ih =>
    show counting.all rest (n + 1) = _
    rw [ih, List.length_cons, UInt64.ofNat_add, UInt64.add_assoc,
      UInt64.add_comm (UInt64.ofNat _) (UInt64.ofNat 1)]
    rfl

/-! ## Writing -/

variable [Word S]

/-- The pair that a result row is written as. -/
def pairOf (row : Nat × S) : Pair S := ⟨Word.ofNat row.1, row.2⟩

/-- Takes the slot at the cursor, if the buffer has one there. -/
def writing : Step S (PairBuffer S) := fun row found b =>
  ⟨b.cursor + 1, b.pairs.setIfInBounds b.cursor.toNat (pairOf (row, found))⟩

theorem cursor_writing (row : Nat) (found : S) {b : PairBuffer S}
    (hlt : b.cursor.toNat + 1 < UInt64.size) :
    (writing row found b).cursor.toNat = b.cursor.toNat + 1 := by
  show (b.cursor + 1).toNat = _
  rw [UInt64.toNat_add]
  exact Nat.mod_eq_of_lt hlt

/-- A row number of the row index type, or one for which there is no slot, is no fault. -/
theorem write_of_lt {row : Nat} {found : S} {b : PairBuffer S}
    (hrow : b.cursor.toNat < b.pairs.size → row < Word.toNat (Word.top S)) :
    write row found b = .ok () (writing row found b) := by
  obtain ⟨cursor, pairs⟩ := b
  unfold write writing
  by_cases hroom : cursor.toNat < pairs.size
  · dsimp only
    rw [dif_pos hroom, Pair.ofRow, if_pos (hrow hroom)]
    dsimp only
    rw [Array.setIfInBounds, dif_pos hroom]
    rfl
  · dsimp only
    rw [dif_neg hroom, Array.setIfInBounds, dif_neg hroom]

/-- A row that is to be written and has no index of the type stops the receiver. -/
theorem write_of_ge {row : Nat} (found : S) {b : PairBuffer S}
    (hroom : b.cursor.toNat < b.pairs.size) (hrow : Word.toNat (Word.top S) ≤ row) :
    ∃ b', write row found b = .error (.rowOverflow (8 * Word.bytes S)) b' := by
  obtain ⟨cursor, pairs⟩ := b
  refine ⟨⟨cursor + 1, pairs⟩, ?_⟩
  unfold write
  dsimp only
  rw [dif_pos hroom, Pair.ofRow, if_neg (Nat.not_lt_of_le hrow)]

/-- The row index type has an index for each of the probe rows. -/
def Numbered (rows : List (Nat × S)) : Prop := ∀ row ∈ rows, row.1 < Word.toNat (Word.top S)

/-- Rows are received as long as those that are written have an index. -/
theorem each_write (rows : List (Nat × S)) (b : PairBuffer S)
    (hlt : b.cursor.toNat + rows.length < UInt64.size) :
    (Numbered (rows.take (b.pairs.size - b.cursor.toNat)) ∧
      write.each rows b = .ok () (writing.all rows b)) ∨
    (¬Numbered (rows.take (b.pairs.size - b.cursor.toNat)) ∧
      ∃ b', write.each rows b = .error (.rowOverflow (8 * Word.bytes S)) b') := by
  induction rows generalizing b with
  | nil => exact .inl ⟨fun _ hrow => absurd hrow (by simp), rfl⟩
  | cons row rest ih =>
    rw [List.length_cons] at hlt
    have hnext := cursor_writing row.1 row.2 (b := b) (by omega)
    have hsize : (writing row.1 row.2 b).pairs.size = b.pairs.size := Array.size_setIfInBounds
    have hrest := ih (writing row.1 row.2 b) (by omega)
    rw [hnext, hsize] at hrest
    rw [each_cons]
    rcases Nat.lt_or_ge b.cursor.toNat b.pairs.size with hroom | hfull
    · have hleft : b.pairs.size - b.cursor.toNat = b.pairs.size - (b.cursor.toNat + 1) + 1 := by
        omega
      rw [hleft, List.take_succ_cons]
      rcases Nat.lt_or_ge row.1 (Word.toNat (Word.top S)) with hrow | hrow
      · rw [write_of_lt fun _ => hrow]
        refine hrest.imp (fun ⟨hnumbered, heach⟩ => ⟨?_, heach⟩)
          (fun ⟨hnumbered, heach⟩ => ⟨fun h => hnumbered ?_, heach⟩)
        · exact List.forall_mem_cons.mpr ⟨hrow, hnumbered⟩
        · exact (List.forall_mem_cons.mp h).2
      · obtain ⟨b', hfault⟩ := write_of_ge row.2 hroom hrow
        rw [hfault]
        exact .inr ⟨fun h => Nat.not_lt_of_le hrow (h row List.mem_cons_self), b', rfl⟩
    · rw [Nat.sub_eq_zero_of_le hfull, List.take_zero]
      rw [Nat.sub_eq_zero_of_le (Nat.le_succ_of_le hfull), List.take_zero] at hrest
      rw [write_of_lt fun hroom => absurd hroom (Nat.not_lt_of_le hfull)]
      exact hrest

theorem write_does {len : Nat} (hlen : len ≤ Word.toNat (Word.top S)) :
    (write : Emit S (PairBuffer S)).Does writing len :=
  fun _ hrow _ _ => write_of_lt fun _ => Nat.lt_of_lt_of_le hrow hlen

theorem size_write {row : Nat} {found : S} {b b' : PairBuffer S}
    (h : write row found b = .ok () b') : b'.pairs.size = b.pairs.size := by
  obtain ⟨cursor, pairs⟩ := b
  unfold write at h
  dsimp only at h
  split at h
  · split at h
    · rename_i hroom _ pair _
      cases h
      exact Array.size_set hroom
    · cases h
  · cases h
    rfl

/-- Writing counts, too. -/
theorem cursor_all_writing (rows : List (Nat × S)) (b : PairBuffer S) :
    (writing.all rows b).cursor = counting.all rows b.cursor := by
  induction rows generalizing b with
  | nil => rfl
  | cons row rest ih => exact ih (writing row.1 row.2 b)

theorem take_set_succ {α : Type} (l : List α) {n : Nat} (a : α) (h : n < l.length) :
    (l.set n a).take (n + 1) = l.take n ++ [a] := by
  rw [List.take_add_one, List.take_set_of_le (Nat.le_refl n), List.getElem?_set_self h]
  rfl

/-- Rows are written behind the cursor in their order as far as the buffer goes, and what stands
before the first and behind the last of them stays. -/
theorem toList_all_writing (rows : List (Nat × S)) (b : PairBuffer S)
    (hlt : b.cursor.toNat + rows.length < UInt64.size) :
    (writing.all rows b).pairs.toList = b.pairs.toList.take b.cursor.toNat ++
      ((rows.map pairOf).take (b.pairs.size - b.cursor.toNat) ++
        b.pairs.toList.drop (b.cursor.toNat + rows.length)) := by
  induction rows generalizing b with
  | nil =>
    rw [List.map_nil, List.take_nil, List.nil_append, List.length_nil, Nat.add_zero,
      List.take_append_drop]
    rfl
  | cons row rest ih =>
    rw [List.length_cons] at hlt ⊢
    have hnext := cursor_writing row.1 row.2 (b := b) (by omega)
    have hrest := ih (writing row.1 row.2 b) (by omega)
    show (writing.all rest (writing row.1 row.2 b)).pairs.toList = _
    rw [hrest, hnext, writing]
    dsimp only
    rw [Array.size_setIfInBounds, Array.toList_setIfInBounds, List.map_cons,
      show b.cursor.toNat + 1 + rest.length = b.cursor.toNat + (rest.length + 1) by omega,
      List.drop_set_of_lt (by omega)]
    rcases Nat.lt_or_ge b.cursor.toNat b.pairs.size with hroom | hfull
    · have hleft : b.pairs.size - b.cursor.toNat = b.pairs.size - (b.cursor.toNat + 1) + 1 := by
        omega
      rw [take_set_succ _ _ (by rwa [Array.length_toList]), hleft, List.take_succ_cons,
        List.append_assoc, List.singleton_append, List.cons_append]
    · have hlength : b.pairs.toList.length ≤ b.cursor.toNat := by rwa [Array.length_toList]
      rw [List.set_eq_of_length_le hlength, Nat.sub_eq_zero_of_le hfull,
        Nat.sub_eq_zero_of_le (Nat.le_succ_of_le hfull), List.take_zero, List.take_zero,
        List.take_of_length_le hlength, List.take_of_length_le (Nat.le_succ_of_le hlength)]

/-- Rows that fit into the buffer stand there in the order in which they were written. -/
theorem take_all_writing (rows : List (Nat × S)) (b : PairBuffer S)
    (hroom : b.cursor.toNat + rows.length ≤ b.pairs.size)
    (hlt : b.cursor.toNat + rows.length < UInt64.size) :
    (writing.all rows b).pairs.toList.take (b.cursor.toNat + rows.length) =
      b.pairs.toList.take b.cursor.toNat ++ rows.map pairOf := by
  have hfit : (rows.map pairOf).take (b.pairs.size - b.cursor.toNat) = rows.map pairOf :=
    List.take_of_length_le (by rw [List.length_map]; omega)
  rw [toList_all_writing rows b hlt, hfit, ← List.append_assoc]
  refine List.take_left' ?_
  rw [List.length_append, List.length_map, List.length_take, Array.length_toList]
  omega

end Emit

/-- A table whose look-ups find row numbers below `len` only. -/
def Multimap.RowsBelow {K S : Type} [Word S] (m : Multimap K S) (len : Nat) : Prop :=
  ∀ key, ∀ row ∈ m.find key, Word.toNat row < len

section RowsBelow

variable {K S : Type} [Word S] {m : Multimap K S}

/-- Whatever the keying, what is found in a table of entries of rows are rows. -/
theorem Multimap.Holds.rowsBelow {entries : List (K × S)} {len : Nat} (h : m.Holds entries)
    (hentries : ∀ e ∈ entries, Word.toNat e.2 < len) : m.RowsBelow len := by
  intro key row hrow
  obtain ⟨k, hmem⟩ := h.mem_find hrow
  exact hentries _ hmem

theorem Multimap.Stores.rowsBelow [JoinKey K] {keys : Array K} {rows : List Nat}
    (h : m.Stores keys rows) : m.RowsBelow keys.size :=
  h.holds.rowsBelow fun _ he =>
    have ⟨_, _, hi⟩ := List.mem_filterMap.mp he
    toNat_lt_of_rowEntry hi

end RowsBelow

/-- A table over the rows of `build` that the rows of `probe` can be looked up in. -/
structure Multimap.Probeable {K S : Type} [Word S] (table : Multimap K S)
    (probe build : KeyColumns K) : Prop where
  compatible : probe.Compatible build
  rowsBelow : table.RowsBelow build.len
  /-- The blocks of a grid over the probe rows can be counted. -/
  size : probe.len + UInt32.size ≤ UInt64.size
  probeRows : probe.len < Word.toNat (Word.top S)
  buildRows : build.len < Word.toNat (Word.top S)

/-- A row number type that can number the rows of a side has bytes. -/
theorem Multimap.Probeable.bytes_pos {K S : Type} [Word S] {table : Multimap K S}
    {probe build : KeyColumns K} (h : table.Probeable probe build) : 0 < Word.bytes S := by
  refine Nat.pos_of_ne_zero fun hzero => ?_
  have hsize : Word.size S = 1 := by rw [Word.size_eq, hzero]
  have hlt := Word.toNat_lt (Word.top S)
  have hrows := h.probeRows
  omega

namespace Prober

variable {K S σ : Type} [Word S]

/-! ## One probe row -/

/-- The rows among `found` that agree with probe row `row` in the secondary keys. -/
def agreeing (probe build : KeyColumns K) (row : Nat) (found : List S) : List S :=
  found.filter fun j => probe.sameSecondary build row (Word.toNat j)

/-- What the thread of probe row `row` emits. -/
def emitted (p : Prober) (table : Multimap K S) (probe build : KeyColumns K) (row : Nat) :
    List (Nat × S) :=
  match probe.keys[row]? with
  | none => []
  | some key =>
    match p.joinType, agreeing probe build row (table.find key) with
    | .left, [] => [(row, Word.top S)]
    | _, found => found.map fun j => (row, j)

variable {p : Prober} {table : Multimap K S} {probe build : KeyColumns K} {emit : Emit S σ}
  {step : Emit.Step S σ}

theorem emitted_fst {row : Nat} {emittedRow : Nat × S}
    (h : emittedRow ∈ p.emitted table probe build row) : emittedRow.1 = row := by
  unfold emitted at h
  split at h
  · cases h
  · split at h
    · rw [List.mem_singleton.mp h]
    · obtain ⟨j, -, rfl⟩ := List.mem_map.mp h
      rfl

theorem emitMatches_eq (hc : probe.Compatible build) {row : Nat} (hrow : row < probe.len)
    {found : List S} (hfound : ∀ j ∈ found, Word.toNat j < build.len) (s : σ) :
    emitMatches probe build emit row found s =
      match emit.each ((agreeing probe build row found).map fun j => (row, j)) s with
      | .ok _ s => .ok (!(agreeing probe build row found).isEmpty) s
      | .error fault s => .error fault s := by
  induction found generalizing s with
  | nil => rfl
  | cons j rest ih =>
    have hj := hfound j List.mem_cons_self
    have hrest := ih fun k hk => hfound k (List.mem_cons_of_mem _ hk)
    rw [emitMatches, KeyColumns.secondarySame_eq hc hrow hj]
    cases hsame : probe.sameSecondary build row (Word.toNat j) with
    | false =>
      have hskip : agreeing probe build row (j :: rest) = agreeing probe build row rest :=
        List.filter_cons_of_neg (by simp [hsame])
      rw [hskip]
      exact hrest s
    | true =>
      have htake : agreeing probe build row (j :: rest) = j :: agreeing probe build row rest :=
        List.filter_cons_of_pos hsame
      rw [htake, List.map_cons, Emit.each_cons]
      dsimp only
      cases emit row j s with
      | error fault s => rfl
      | ok _ s =>
        dsimp only
        rw [hrest]
        cases emit.each ((agreeing probe build row rest).map fun j => (row, j)) s <;> rfl

/-- The thread of a row emits what belongs to the row. -/
theorem kernel_eq (hc : probe.Compatible build) (hrows : table.RowsBelow build.len) {len : Nat}
    (hlen : len ≤ probe.len) (t : Thread) (s : σ) :
    p.kernel table probe build len emit t s =
      if t.global < len then emit.each (p.emitted table probe build t.global) s else .ok () s := by
  unfold kernel emitted
  by_cases ht : t.global < len
  · have hrow : t.global < probe.len := Nat.lt_of_lt_of_le ht hlen
    rw [if_pos ht]
    dsimp only
    rw [if_neg (Nat.not_le_of_lt ht), Array.getElem?_eq_getElem hrow]
    dsimp only
    rw [emitMatches_eq hc hrow (hrows _)]
    cases agreeing probe build t.global (table.find probe.keys[t.global]) with
    | nil =>
      cases p.joinType with
      | inner => rfl
      | left =>
        show emit t.global (Word.top S) s = _
        rw [Emit.each_cons]
        cases emit t.global (Word.top S) s <;> rfl
    | cons j rest =>
      cases p.joinType
      all_goals
        show _ = emit.each ((j :: rest).map fun j => (t.global, j)) s
        cases emit.each ((j :: rest).map fun j => (t.global, j)) s <;> rfl
  · rw [if_neg ht]
    dsimp only
    rw [if_pos (Nat.le_of_not_lt ht)]

/-! ## A whole probe -/

/-- What the probe rows `rows` emit. -/
def emissions (p : Prober) (table : Multimap K S) (probe build : KeyColumns K) (rows : List Nat) :
    List (Nat × S) := rows.flatMap (p.emitted table probe build)

theorem probe_balanced (p : Prober) (table : Multimap K S) (probe build : KeyColumns K) (len : Nat)
    (emit : Emit S σ) (s : σ) :
    DeviceM.Balanced (p.probe table probe build len emit s) fun _ => 0 := by
  unfold Prober.probe
  dsimp only
  split
  · exact .pure rfl
  · exact DeviceM.Balanced.mapError
      (DeviceM.Balanced.bind (.ofExcept _) fun l => DeviceM.launch_balanced _ l _ s)

theorem emissions_fst {rows : List Nat} {row : Nat × S}
    (h : row ∈ p.emissions table probe build rows) : row.1 ∈ rows := by
  obtain ⟨i, hi, hrow⟩ := List.mem_flatMap.mp h
  rwa [emitted_fst hrow]

/-- What a receiver does not fault on it takes up. -/
theorem each_emissions {len : Nat} (hemit : emit.Does step len) {rows : List Nat}
    (hrows : ∀ i ∈ rows, i < len) (s : σ) :
    emit.each (p.emissions table probe build rows) s =
      .ok () (step.all (p.emissions table probe build rows) s) :=
  hemit.each (fun _ hrow => hrows _ (emissions_fst hrow)) s

/-- A launch hands over what the probe rows emit in the order in which they are taken up. -/
theorem launch_kernel (hc : probe.Compatible build) (hrows : table.RowsBelow build.len) {len : Nat}
    (hlen : len ≤ probe.len) {l : Launch} (hl : l.Covers len) (s : σ) (d : Device) :
    DeviceM.launch p.kernelName l (p.kernel table probe build len emit) s d =
      match emit.each (p.emissions table probe build (d.rowOrder l len)) s with
      | .ok _ s => .ok s { d with launches := d.launches + 1 }
      | .error fault _ =>
        .error (.launchFailed p.kernelName fault) { d with launches := d.launches + 1 } := by
  rw [Device.launch_rows p.kernelName (fun row => emit.each (p.emitted table probe build row)) hl
    (kernel_eq hc hrows hlen) s d, Emit.forM_each]
  rfl

theorem launch_of_does {len : Nat} (hemit : emit.Does step len) (hc : probe.Compatible build)
    (hrows : table.RowsBelow build.len) (hlen : len ≤ probe.len) {l : Launch} (hl : l.Covers len)
    (s : σ) {d : Device} (hd : d.RunsAll) :
    DeviceM.launch p.kernelName l (p.kernel table probe build len emit) s d =
      .ok (step.all (p.emissions table probe build (d.rowOrder l len)) s)
        { d with launches := d.launches + 1 } := by
  rw [launch_kernel hc hrows hlen hl,
    each_emissions hemit fun _ => (Device.rowOrder_orders hd hl).lt]

theorem probe_of_zero {len : Nat} (hlen : min len probe.len = 0) (s : σ) (d : Device) :
    p.probe table probe build len emit s d = .ok s d := by
  unfold Prober.probe
  rw [if_pos hlen]
  rfl

/-- A probe over a grid is its launch. -/
theorem probe_of_forLen (hc : probe.Compatible build) (hrows : table.RowsBelow build.len)
    {len : Nat} (hlen : min len probe.len ≠ 0) {l : Launch}
    (hl : Launch.forLen (UInt64.ofNat (min len probe.len)) p.block = .ok l)
    (hcovers : l.Covers (min len probe.len)) (s : σ) (d : Device) :
    p.probe table probe build len emit s d =
      match emit.each (p.emissions table probe build (d.rowOrder l (min len probe.len))) s with
      | .ok _ s => .ok s { d with launches := d.launches + 1 }
      | .error fault _ => .error (.device (.launchFailed p.kernelName fault))
        { d with launches := d.launches + 1 } := by
  have hbind := DeviceM.bind_of_ok (f := fun l => DeviceM.launch p.kernelName l
    (p.kernel table probe build (min len probe.len) emit) s) (DeviceM.ofExcept_of_ok hl d)
  rw [launch_kernel hc hrows (Nat.min_le_right ..) hcovers] at hbind
  unfold Prober.probe
  rw [if_neg hlen]
  cases heach :
      emit.each (p.emissions table probe build (d.rowOrder l (min len probe.len))) s with
  | ok _ s' =>
    rw [heach] at hbind
    exact DeviceM.mapError_of_ok hbind
  | error fault s' =>
    rw [heach] at hbind
    exact DeviceM.mapError_of_error hbind

/-- A probe hands its receiver the rows that its probe rows emit. -/
theorem probe_ok (hemit : emit.Does step probe.len) (hp : table.Probeable probe build)
    {d d' : Device} (hd : d.RunsAll) {len : Nat} {s s' : σ}
    (h : p.probe table probe build len emit s d = .ok s' d') :
    ∃ rows, d.Orders (min len probe.len) rows ∧
      s' = step.all (p.emissions table probe build rows) s := by
  have hsize := hp.size
  have hle : min len probe.len ≤ probe.len := Nat.min_le_right ..
  unfold Prober.probe at h
  split at h
  · rename_i hzero
    cases h
    exact ⟨[], ⟨by rw [hzero]; rfl, fun _ => by rw [hzero]; rfl⟩, rfl⟩
  · obtain ⟨l, d₁, hl, h⟩ := DeviceM.bind_ok (DeviceM.mapError_ok h)
    have hb := (DeviceM.Balanced.ofExcept _).ok hl
    have hcovers : l.Covers (min len probe.len) :=
      Launch.forLen_ofNat_covers (by omega) (DeviceM.ofExcept_ok hl)
    rw [launch_of_does (hemit.mono hle) hp.compatible hp.rowsBelow hle hcovers s
      (hd.became hb)] at h
    cases h
    exact ⟨_, (Device.rowOrder_orders (hd.became hb) hcovers).of_became hb, rfl⟩

/-- A probe whose grid is not too large succeeds. -/
theorem probe_isOk (hemit : emit.Does step probe.len) (hp : table.Probeable probe build)
    (hb : p.block ≠ 0) (hsize : probe.len < UInt32.size) (len : Nat) (s : σ) {d : Device}
    (hd : d.RunsAll) : ∃ s' d', p.probe table probe build len emit s d = .ok s' d' := by
  have hle : min len probe.len ≤ probe.len := Nat.min_le_right ..
  have hgrid : min len probe.len ≤ (UInt32.size - 1) * p.block.toNat :=
    calc min len probe.len ≤ UInt32.size - 1 := Nat.le_trans hle (Nat.le_sub_one_of_lt hsize)
      _ ≤ (UInt32.size - 1) * p.block.toNat := Nat.le_mul_of_pos_right _ (Launch.toNat_pos hb)
  obtain ⟨l, hl, hcovers⟩ := Launch.exists_forLen_covers hb hgrid
  by_cases hzero : min len probe.len = 0
  · exact ⟨s, d, probe_of_zero hzero s d⟩
  · rw [probe_of_forLen hp.compatible hp.rowsBelow hzero hl hcovers,
      each_emissions (hemit.mono hle) fun _ => (Device.rowOrder_orders hd hcovers).lt]
    exact ⟨_, _, rfl⟩

theorem emissions_perm (p : Prober) (table : Multimap K S) (probe build : KeyColumns K)
    {rows rows' : List Nat} (h : rows.Perm rows') :
    (p.emissions table probe build rows).Perm (p.emissions table probe build rows') :=
  h.flatMap_right _

/-- The rows of a list that a launch over `len` rows may take up emit as many rows as the first
`len` rows do. -/
theorem length_emissions (p : Prober) (table : Multimap K S) (probe build : KeyColumns K)
    {d : Device} {len : Nat} {rows : List Nat} (h : d.Orders len rows) :
    (p.emissions table probe build rows).length =
      (p.emissions table probe build (List.range len)).length :=
  (p.emissions_perm table probe build h.perm).length_eq

theorem length_emissions_le (p : Prober) (table : Multimap K S) (probe build : KeyColumns K)
    {len len' : Nat} (h : len ≤ len') :
    (p.emissions table probe build (List.range len)).length ≤
      (p.emissions table probe build (List.range len')).length := by
  obtain ⟨k, rfl⟩ := Nat.exists_eq_add_of_le h
  rw [List.range_add, emissions, emissions, List.flatMap_append, List.length_append]
  exact Nat.le_add_right ..

/-! ## Counting and writing -/

theorem count_balanced (p : Prober) (table : Multimap K S) (probe build : KeyColumns K)
    (len : Nat) : DeviceM.Balanced (p.count table probe build len) fun _ => 0 :=
  p.probe_balanced table probe build len _ _

/-- Counting gives the number of emitted rows. -/
theorem count_ok (hp : table.Probeable probe build) {d d' : Device} (hd : d.RunsAll) {len : Nat}
    {n : UInt64} (h : p.count table probe build len d = .ok n d') :
    n = UInt64.ofNat
      (p.emissions table probe build (List.range (min len probe.len))).length := by
  obtain ⟨rows, horder, rfl⟩ := probe_ok (Emit.count_does _) hp hd h
  rw [Emit.all_counting, UInt64.zero_add, p.length_emissions table probe build horder]

theorem materialize_balanced (p : Prober) (table : Multimap K S) (probe build : KeyColumns K)
    (len : Nat) (pairs : Array (Pair S)) :
    DeviceM.Balanced (p.materialize table probe build len pairs) fun _ => 0 :=
  p.probe_balanced table probe build len _ _

/-- Writing counts the emitted rows, and if the buffer has room for all of them, they are its first
pairs. -/
theorem materialize_ok (hp : table.Probeable probe build) {d d' : Device} (hd : d.RunsAll)
    {len : Nat} {pairs : Array (Pair S)} {output : PairBuffer S}
    (h : p.materialize table probe build len pairs d = .ok output d') :
    ∃ rows, d.Orders (min len probe.len) rows ∧
      output.cursor = UInt64.ofNat (p.emissions table probe build rows).length ∧
      ((p.emissions table probe build rows).length ≤ pairs.size →
        (p.emissions table probe build rows).length < UInt64.size →
        output.pairs.toList.take (p.emissions table probe build rows).length =
          (p.emissions table probe build rows).map Emit.pairOf) := by
  obtain ⟨rows, horder, rfl⟩ := probe_ok (Emit.write_does (Nat.le_of_lt hp.probeRows)) hp hd h
  refine ⟨rows, horder, ?_, fun hroom hlt => ?_⟩
  · rw [Emit.cursor_all_writing, Emit.all_counting, UInt64.zero_add]
  · have hzero : (0 : UInt64).toNat = 0 := rfl
    have htake := Emit.take_all_writing (p.emissions table probe build rows) ⟨0, pairs⟩
      (by rwa [hzero, Nat.zero_add]) (by rwa [hzero, Nat.zero_add])
    rwa [hzero, Nat.zero_add, List.take_zero, List.nil_append] at htake

/-! ## Properties that emitting keeps -/

theorem emitMatches_keeps {P : σ → Prop}
    (hemit : ∀ row j s s', P s → emit row j s = .ok () s' → P s') {row : Nat} {found : List S}
    {b : Bool} {s s' : σ} (hs : P s)
    (h : emitMatches probe build emit row found s = .ok b s') : P s' := by
  induction found generalizing s b with
  | nil =>
    cases h
    exact hs
  | cons j rest ih =>
    unfold emitMatches at h
    split at h
    · cases h
    · exact ih hs h
    · split at h
      · cases h
      · rename_i hrow
        split at h
        · rename_i hrest
          cases h
          exact ih (hemit _ _ _ _ hs hrow) hrest
        · cases h

theorem kernel_keeps {P : σ → Prop} (hemit : ∀ row j s s', P s → emit row j s = .ok () s' → P s')
    {len : Nat} {t : Thread} {s s' : σ} (hs : P s)
    (h : p.kernel table probe build len emit t s = .ok () s') : P s' := by
  unfold kernel at h
  dsimp only at h
  split at h
  · cases h
    exact hs
  · split at h
    · cases h
      exact hs
    · split at h
      · cases h
      · rename_i hmatches
        have hmatched := emitMatches_keeps hemit hs hmatches
        split at h
        · exact hemit _ _ _ _ hmatched h
        · cases h
          exact hmatched

/-- Whatever the keys and the threads, a probe that succeeds has kept what emitting keeps. -/
theorem probe_keeps {P : σ → Prop} (hemit : ∀ row j s s', P s → emit row j s = .ok () s' → P s')
    {len : Nat} {s s' : σ} {d d' : Device} (hs : P s)
    (h : p.probe table probe build len emit s d = .ok s' d') : P s' := by
  unfold Prober.probe at h
  split at h
  · cases h
    exact hs
  · obtain ⟨l, d₁, -, h⟩ := DeviceM.bind_ok (DeviceM.mapError_ok h)
    exact Device.launch_keeps (fun t s s' hs h => kernel_keeps hemit hs h) hs h

theorem size_materialize {len : Nat} {pairs : Array (Pair S)} {output : PairBuffer S}
    {d d' : Device} (h : p.materialize table probe build len pairs d = .ok output d') :
    output.pairs.size = pairs.size :=
  probe_keeps (P := fun b : PairBuffer S => b.pairs.size = pairs.size)
    (fun _ _ _ _ hb hrow => (Emit.size_write hrow).trans hb) rfl h

/-! ## Emitted rows are result rows -/

/-- A probe row is emitted with a row of the build side, or, in a left join, with none. -/
theorem emitted_snd (hfinds : table.RowsBelow build.len) {i : Nat} {row : Nat × S}
    (h : row ∈ p.emitted table probe build i) :
    Word.toNat row.2 < build.len ∨ (p.joinType = .left ∧ row.2 = Word.top S) := by
  unfold emitted at h
  split at h
  · cases h
  · rename_i key hkey
    split at h
    · rename_i hleft hnone
      obtain rfl := List.mem_singleton.mp h
      exact Or.inr ⟨hleft, rfl⟩
    · obtain ⟨j, hj, rfl⟩ := List.mem_map.mp h
      exact Or.inl (hfinds key j (List.mem_filter.mp hj).1)

theorem length_emitted_le {n : Nat} (hfind : ∀ key, (table.find key).length ≤ n) (row : Nat) :
    (p.emitted table probe build row).length ≤ max n 1 := by
  unfold emitted
  split
  · exact Nat.zero_le _
  · rename_i key _
    have hle : (agreeing probe build row (table.find key)).length ≤ n :=
      Nat.le_trans (List.length_filter_le ..) (hfind key)
    split
    · exact Nat.le_max_right ..
    · rw [List.length_map]
      exact Nat.le_trans hle (Nat.le_max_left ..)

/-- In a left join every probe row emits a row. -/
theorem emitted_ne_nil (hleft : p.joinType = .left) {row : Nat} (hrow : row < probe.len) :
    p.emitted table probe build row ≠ [] := by
  intro hnil
  unfold emitted at hnil
  rw [Array.getElem?_eq_getElem hrow] at hnil
  dsimp only at hnil
  split at hnil
  · cases hnil
  · rename_i hmatch
    exact hmatch hleft (List.map_eq_nil_iff.mp hnil)

theorem mem_emissions (hfinds : table.RowsBelow build.len) {rows : List Nat} {row : Nat × S}
    (h : row ∈ p.emissions table probe build rows) :
    row.1 ∈ rows ∧
      (Word.toNat row.2 < build.len ∨ (p.joinType = .left ∧ row.2 = Word.top S)) := by
  obtain ⟨i, -, hrow⟩ := List.mem_flatMap.mp h
  exact ⟨emissions_fst h, emitted_snd hfinds hrow⟩

theorem row?_top : JoinResult.row? (Word.top S) = none := if_pos rfl

theorem toNat_ofNat_of_lt_top {j : Nat} (hj : j < Word.toNat (Word.top S)) :
    Word.toNat (Word.ofNat j : S) = j := by
  rw [Word.toNat_ofNat, Nat.mod_eq_of_lt (Nat.lt_trans hj (Word.toNat_lt _))]

theorem row?_ofNat {j : Nat} (hj : j < Word.toNat (Word.top S)) :
    JoinResult.row? (Word.ofNat j : S) = some j := by
  rw [JoinResult.row?, toNat_ofNat_of_lt_top hj, if_neg (Nat.ne_of_lt hj)]

/-- An emitted row with its build row read as a number. -/
def rowOf (row : Nat × S) : Nat × Option Nat := (row.1, JoinResult.row? row.2)

variable [JoinKey K] {rows : List Nat}

/-- The rows found for a probe row are its matching rows, in the order in which they were stored. -/
theorem agreeing_find (hc : probe.Compatible build) (hstores : table.Stores build.keys rows)
    (hlaw : table.keying.Lawful) (hrows : ∀ j ∈ rows, j < Word.toNat (Word.top S)) {i : Nat}
    {key : K} (hkey : probe.keys[i]? = some key) :
    agreeing probe build i (table.find key) =
      (rows.filter (NestedLoop.rowsMatch table.keying.equal probe build i)).map Word.ofNat := by
  rw [agreeing, hstores.find hlaw, List.filter_map, List.filter_filter]
  congr 1
  refine List.filter_congr fun j hj => ?_
  rw [NestedLoop.rowsMatch_eq hc, hkey, Function.comp_apply, toNat_ofNat_of_lt_top (hrows j hj)]
  cases build.keys[j]? with
  | none => exact Bool.and_false _
  | some b => exact Bool.and_comm ..

theorem map_rowOf_emitted (hc : probe.Compatible build) (hstores : table.Stores build.keys rows)
    (hlaw : table.keying.Lawful) (hrows : ∀ j ∈ rows, j < Word.toNat (Word.top S)) {i : Nat}
    (hi : i < probe.len) :
    (p.emitted table probe build i).map rowOf = NestedLoop.pairUp p.joinType i
      (rows.filter (NestedLoop.rowsMatch table.keying.equal probe build i)) := by
  have hkey : probe.keys[i]? = some probe.keys[i] := Array.getElem?_eq_getElem hi
  have hfound := agreeing_find hc hstores hlaw hrows hkey
  have hread : ∀ j ∈ rows.filter (NestedLoop.rowsMatch table.keying.equal probe build i),
      rowOf (i, (Word.ofNat j : S)) = (i, some j) := by
    intro j hj
    rw [rowOf, row?_ofNat (hrows j (List.mem_filter.mp hj).1)]
  unfold emitted
  rw [hkey]
  dsimp only
  rw [hfound]
  cases hm : rows.filter (NestedLoop.rowsMatch table.keying.equal probe build i) with
  | nil =>
    cases p.joinType with
    | inner => rfl
    | left => exact congrArg (fun row? => [(i, row?)]) row?_top
  | cons j rest =>
    rw [hm] at hread
    have hmap : (((j :: rest).map Word.ofNat).map fun j => (i, (j : S))).map rowOf =
        (j :: rest).map fun j => (i, some j) := by
      rw [List.map_map, List.map_map]
      exact List.map_congr_left hread
    cases p.joinType <;> exact hmap

/-- The emitted rows of the first `len` probe rows are their join, up to the order of the rows. -/
theorem map_rowOf_emissions_perm (hc : probe.Compatible build)
    (hstores : table.Stores build.keys rows) (hlaw : table.keying.Lawful)
    (hbuild : build.len ≤ Word.toNat (Word.top S)) (hrows : rows.Perm (List.range build.len))
    {len : Nat} (hlen : len ≤ probe.len) {taken : List Nat} (htaken : taken.Perm (List.range len)) :
    ((p.emissions table probe build taken).map rowOf).Perm
      (NestedLoop.join p.joinType table.keying.equal probe build len) := by
  have hlt : ∀ j ∈ rows, j < Word.toNat (Word.top S) := fun j hj =>
    Nat.lt_of_lt_of_le (List.mem_range.mp (hrows.mem_iff.mp hj)) hbuild
  rw [emissions, List.map_flatMap, NestedLoop.join]
  refine htaken.flatMap fun i hi => ?_
  have hi : i < probe.len :=
    Nat.lt_of_lt_of_le (List.mem_range.mp (htaken.mem_iff.mp hi)) hlen
  rw [map_rowOf_emitted hc hstores hlaw hlt hi, NestedLoop.resultRows_eq_pairUp]
  exact NestedLoop.pairUp_perm (hrows.filter _)

/-- Rows that were stored and probed in ascending order are emitted in the order of the nested
loops. -/
theorem map_rowOf_emissions_eq (hc : probe.Compatible build)
    (hstores : table.Stores build.keys (List.range build.len)) (hlaw : table.keying.Lawful)
    (hbuild : build.len ≤ Word.toNat (Word.top S)) :
    (p.emissions table probe build (List.range probe.len)).map rowOf =
      NestedLoop.join p.joinType table.keying.equal probe build probe.len := by
  have hlt : ∀ j ∈ List.range build.len, j < Word.toNat (Word.top S) := fun j hj =>
    Nat.lt_of_lt_of_le (List.mem_range.mp hj) hbuild
  rw [emissions, List.map_flatMap, NestedLoop.join, List.flatMap_def, List.flatMap_def]
  congr 1
  refine List.map_congr_left fun i hi => ?_
  exact map_rowOf_emitted hc hstores hlaw hlt (List.mem_range.mp hi)

end Prober
end GridOps
