import GridOps.Proofs.Join.BuildOutcome

/-!
Counting and writing the result rows of a probe.

Both receivers are handed the same rows in the same order (`Prober.results`), so the counter and the
cursor end at the same number, and the buffer has as many of the rows as it has slots for
(`materialize_agrees`).  Only the writing receiver needs row numbers of its row index type, for the
rows that it has slots for.  For a keying that gives equal keys equal hashes these rows are told
without looking anything up: every probe row is compared with every entry that the table took up
(`NestedLoop.entryPairs`).
-/

namespace GridOps

namespace PairBuffer

variable {S : Type} [Word S] {b b' : PairBuffer S} {rows : List (Nat × S)}
  {before before' : Array (Pair S)}

/-- The probe row number and the build row of a pair. -/
def rowOf (pair : Pair S) : Nat × S := (Word.toNat pair.first, pair.second)

/-- The rows that were written to the buffer. -/
def written (b : PairBuffer S) : List (Nat × S) :=
  (b.pairs.toList.take b.cursor.toNat).map rowOf

/-- The buffer held `before`, and was handed these rows.  All of them are counted, the first stand
in its slots as far as there are slots, and the slots behind them hold what they held. -/
structure Filled (b : PairBuffer S) (rows : List (Nat × S)) (before : Array (Pair S)) : Prop where
  cursor : b.cursor.toNat = rows.length
  size : b.pairs.size = before.size
  front : (b.pairs.toList.take rows.length).map rowOf = rows.take before.size
  kept : b.pairs.toList.drop rows.length = before.toList.drop rows.length

theorem Filled.written_eq (h : b.Filled rows before) : b.written = rows.take before.size := by
  rw [written, h.cursor, h.front]

/-- The cursor tells whether all rows were written. -/
theorem Filled.complete_iff (h : b.Filled rows before) :
    b.written = rows ↔ b.cursor.toNat ≤ b.pairs.size := by
  rw [h.written_eq, h.cursor, h.size, List.take_eq_self_iff]

/-- More slots take further rows of the same list. -/
theorem Filled.prefix_written (h : b.Filled rows before) (h' : b'.Filled rows before')
    (hsize : before.size ≤ before'.size) : b.written <+: b'.written := by
  rw [h.written_eq, h'.written_eq]
  exact List.take_prefix_take_left hsize

theorem rowOf_pairOf {row : Nat × S} (h : row.1 < Word.toNat (Word.top S)) :
    rowOf (Emit.pairOf row) = row := by
  rw [rowOf, Emit.pairOf, Prober.toNat_ofNat_of_lt_top h]

theorem filled_all_writing {pairs : Array (Pair S)} (hcount : rows.length < UInt64.size)
    (hnumbered : Emit.Numbered (rows.take pairs.size)) :
    (Emit.writing.all rows ⟨0, pairs⟩).Filled rows pairs := by
  have hzero : (0 : UInt64).toNat = 0 := rfl
  have hpairs := Emit.toList_all_writing rows ⟨0, pairs⟩ (by rwa [hzero, Nat.zero_add])
  rw [hzero, List.take_zero, List.nil_append, Nat.sub_zero, Nat.zero_add, ← List.map_take] at hpairs
  dsimp only at hpairs
  have hfront : ((rows.take pairs.size).map Emit.pairOf).map rowOf = rows.take pairs.size := by
    rw [List.map_map]
    exact (List.map_congr_left fun row hrow => rowOf_pairOf (hnumbered row hrow)).trans
      (List.map_id _)
  have hlength : ((rows.take pairs.size).map Emit.pairOf).length = min pairs.size rows.length := by
    rw [List.length_map, List.length_take]
  refine ⟨?_, ?_, ?_, ?_⟩
  · rw [Emit.cursor_all_writing, Emit.all_counting, UInt64.zero_add,
      UInt64.toNat_ofNat_of_lt' hcount]
  · have hsize := congrArg List.length hpairs
    simp only [List.length_append, hlength, List.length_drop, Array.length_toList] at hsize
    omega
  all_goals
    rw [hpairs]
    rcases Nat.le_total rows.length pairs.size with hroom | hfull
  · rw [List.take_left' (by omega), hfront]
  · have hnone : pairs.toList.drop rows.length = [] :=
      List.drop_of_length_le (by rwa [Array.length_toList])
    rw [hnone, List.append_nil, List.take_of_length_le (by omega), hfront]
  · rw [List.drop_left' (by omega)]
  · have hnone : pairs.toList.drop rows.length = [] :=
      List.drop_of_length_le (by rwa [Array.length_toList])
    rw [hnone, List.append_nil, List.drop_of_length_le (by omega)]

end PairBuffer

namespace NestedLoop

variable {K S : Type} [Word S]

/-- The build rows of the entries that probe row `i` agrees with in all keys. -/
def entryMatches (equal : K → K → Bool) (probe build : KeyColumns K) (entries : List (K × S))
    (i : Nat) : List S :=
  match probe.keys[i]? with
  | none => []
  | some key =>
    (entries.filter fun e => equal e.1 key &&
      (probe.secondarySame i build (Word.toNat e.2)).toOption == some true).map Prod.snd

/-- The result rows of probe row `i`: its number and a build row, or no row. -/
def entryPairsOf (joinType : JoinType) (equal : K → K → Bool) (probe build : KeyColumns K)
    (entries : List (K × S)) (i : Nat) : List (Nat × S) :=
  match joinType, entryMatches equal probe build entries i with
  | .left, [] => [(i, Word.top S)]
  | _, found => found.map fun row => (i, row)

/-- The result rows of the first `len` probe rows with these entries, probe row by probe row. -/
def entryPairs (joinType : JoinType) (equal : K → K → Bool) (probe build : KeyColumns K)
    (entries : List (K × S)) (len : Nat) : List (Nat × S) :=
  (List.range len).flatMap (entryPairsOf joinType equal probe build entries)

end NestedLoop

/-- A free table that rows below `len` are inserted into, under whatever keys, holds the entries
that it accepts, and these are entries of such rows. -/
theorem Multimap.holds_accepted_rows {K S : Type} [JoinKey K] [Word S] {capacity len : Nat}
    (hpos : 0 < capacity) (keying : Keying K) {inserted : List (K × S)}
    (hinserted : ∀ e ∈ inserted, e.1 ≠ JoinKey.reserved K ∧ Word.toNat e.2 < len) :
    ((free capacity keying).insertAll inserted).Holds ((free capacity keying).accepted inserted) ∧
      ((free capacity keying).insertAll inserted).keying = keying ∧
      ∀ e ∈ (free capacity keying).accepted inserted, Word.toNat e.2 < len := by
  have hkeys : ∀ e ∈ inserted, e.1 ≠ JoinKey.reserved K := fun e he => (hinserted e he).1
  have hfree := holds_free (S := S) hpos keying
  obtain ⟨hholds, -, hkeying⟩ := hfree.holds_accepted hkeys
  refine ⟨hholds, hkeying, fun e he => (hinserted e ?_).2⟩
  rw [hfree.accepted_eq hkeys] at he
  exact List.mem_of_mem_take he

namespace Prober

variable {K S σ : Type} [Word S] {p : Prober} {table : Multimap K S} {probe build : KeyColumns K}
  {entries : List (K × S)}

/-- The result rows of the first `len` probe rows, or of all if there are fewer, in the order of the
probe rows. -/
def results (p : Prober) (table : Multimap K S) (probe build : KeyColumns K) (len : Nat) :
    List (Nat × S) :=
  p.emissions table probe build (List.range (min len probe.len))

theorem agreeing_find_entries (hc : probe.Compatible build) (hholds : table.Holds entries)
    (hlaw : table.keying.Lawful) (hentries : ∀ e ∈ entries, Word.toNat e.2 < build.len) {i : Nat}
    {key : K} (hkey : probe.keys[i]? = some key) :
    agreeing probe build i (table.find key) =
      NestedLoop.entryMatches table.keying.equal probe build entries i := by
  have hi : i < probe.len := (Array.getElem?_eq_some_iff.mp hkey).1
  rw [NestedLoop.entryMatches, hkey, agreeing, hholds.find hlaw, List.filter_map,
    List.filter_filter]
  refine congrArg (List.map Prod.snd) (List.filter_congr fun e he => ?_)
  rw [KeyColumns.secondarySame_eq hc hi (hentries e he), Function.comp_apply, Bool.and_comm]
  cases probe.sameSecondary build i (Word.toNat e.2) <;> rfl

theorem emitted_eq (hc : probe.Compatible build) (hholds : table.Holds entries)
    (hlaw : table.keying.Lawful) (hentries : ∀ e ∈ entries, Word.toNat e.2 < build.len) {i : Nat}
    (hi : i < probe.len) :
    p.emitted table probe build i =
      NestedLoop.entryPairsOf p.joinType table.keying.equal probe build entries i := by
  have hkey : probe.keys[i]? = some probe.keys[i] := Array.getElem?_eq_getElem hi
  have hfound := agreeing_find_entries hc hholds hlaw hentries hkey
  unfold emitted NestedLoop.entryPairsOf
  rw [hkey]
  dsimp only
  generalize agreeing probe build i (table.find probe.keys[i]) = found at hfound ⊢
  subst hfound
  cases NestedLoop.entryMatches table.keying.equal probe build entries i <;>
    cases p.joinType <;> rfl

/-- What a table with these entries gives is what comparing every probe row with every entry
gives. -/
theorem results_eq (hc : probe.Compatible build) (hholds : table.Holds entries)
    (hlaw : table.keying.Lawful) (hentries : ∀ e ∈ entries, Word.toNat e.2 < build.len)
    (len : Nat) :
    p.results table probe build len = NestedLoop.entryPairs p.joinType table.keying.equal probe
      build entries (min len probe.len) := by
  rw [results, emissions, NestedLoop.entryPairs, List.flatMap_def, List.flatMap_def]
  refine congrArg List.flatten (List.map_congr_left fun i hi => ?_)
  exact emitted_eq hc hholds hlaw hentries
    (Nat.lt_of_lt_of_le (List.mem_range.mp hi) (Nat.min_le_right ..))

/-- Without entries a left join gives every probe row no build row. -/
theorem results_free [JoinKey K] {capacity : Nat} (hpos : 0 < capacity) (keying : Keying K)
    (block : UInt32) (probe build : KeyColumns K) (len : Nat) :
    (Prober.mk .left block).results (Multimap.free capacity keying) probe build len =
      (List.range (min len probe.len)).map fun i => (i, Word.top S) := by
  have hnone : ∀ key, (Multimap.free capacity keying : Multimap K S).find key = [] := fun key =>
    List.eq_nil_of_length_eq_zero
      (Nat.le_zero.mp ((Multimap.holds_free hpos keying).length_find_le key))
  rw [results, emissions, ← List.flatMap_pure_eq_map, List.flatMap_def, List.flatMap_def]
  refine congrArg List.flatten (List.map_congr_left fun i hi => ?_)
  have hi : i < probe.len := Nat.lt_of_lt_of_le (List.mem_range.mp hi) (Nat.min_le_right ..)
  unfold emitted
  rw [Array.getElem?_eq_getElem hi]
  dsimp only
  rw [hnone]
  rfl

/-! ## On one worker -/

section OneWorker

variable (emit : Emit S σ) (s : σ) {len : Nat} {d : Device}

/-- The results are handed to the receiver in their order, up to the first that it faults on. -/
theorem probe_of_fits (hc : probe.Compatible build) (hrows : table.RowsBelow build.len)
    (hblock : p.block ≠ 0) (hsize : min len probe.len + UInt32.size ≤ UInt64.size)
    (hfits : Launch.blocksFor (min len probe.len) p.block.toNat < UInt32.size)
    (hd : d.OneWorker) :
    ∃ d', p.probe table probe build len emit s d =
      match emit.each (p.results table probe build len) s with
      | .ok _ s => .ok s d'
      | .error fault _ => .error (.device (.launchFailed p.kernelName fault)) d' := by
  have hl := Launch.forLen_ofNat_eq hblock hsize
  rw [if_pos hfits] at hl
  have hcovers := Launch.forLen_ofNat_covers hsize hl
  unfold results
  by_cases hzero : min len probe.len = 0
  · rw [probe_of_zero hzero, hzero]
    exact ⟨d, rfl⟩
  · rw [probe_of_forLen hc hrows hzero hl hcovers,
      (Device.rowOrder_orders hd.runsAll hcovers).ascending hd]
    exact ⟨_, rfl⟩

/-- Too many blocks for a grid fail the probe before anything is launched. -/
theorem probe_of_not_fits (hblock : p.block ≠ 0)
    (hsize : min len probe.len + UInt32.size ≤ UInt64.size)
    (hmany : UInt32.size ≤ Launch.blocksFor (min len probe.len) p.block.toNat) :
    p.probe table probe build len emit s d =
      .error (.device (.gridTooLarge (Launch.blocksFor (min len probe.len) p.block.toNat))) d := by
  have hl := Launch.forLen_ofNat_eq hblock hsize
  rw [if_neg (Nat.not_lt_of_le hmany)] at hl
  unfold Prober.probe
  split
  · rename_i hnone
    rw [hnone] at hmany
    have hone : Launch.blocksFor 0 p.block.toNat ≤ 1 :=
      (Launch.blocksFor_le_iff (Launch.toNat_pos hblock)).mpr ⟨Nat.le_refl 1, Nat.zero_le _⟩
    exact absurd (Nat.le_trans hmany hone) (by decide)
  · exact DeviceM.mapError_of_error (DeviceM.bind_of_error (DeviceM.ofExcept_of_error hl d))

/-- Counting counts the results. -/
theorem count_results (hc : probe.Compatible build) (hrows : table.RowsBelow build.len)
    (hblock : p.block ≠ 0) (hsize : min len probe.len + UInt32.size ≤ UInt64.size)
    (hfits : Launch.blocksFor (min len probe.len) p.block.toNat < UInt32.size)
    (hd : d.OneWorker) (hcount : (p.results table probe build len).length < UInt64.size) :
    ∃ n d', p.count table probe build len d = .ok n d' ∧
      n.toNat = (p.results table probe build len).length := by
  obtain ⟨d', hprobe⟩ := probe_of_fits Emit.count 0 hc hrows hblock hsize hfits hd
  rw [results, each_emissions (Emit.count_does _) fun _ => List.mem_range.mp] at hprobe
  refine ⟨_, d', hprobe, ?_⟩
  rw [Emit.all_counting, UInt64.zero_add]
  exact UInt64.toNat_ofNat_of_lt' hcount

/-- Writing fills the buffer with the results, unless one of those that it has slots for has no row
index. -/
theorem materialize_results (hc : probe.Compatible build) (hrows : table.RowsBelow build.len)
    (hblock : p.block ≠ 0) (hsize : min len probe.len + UInt32.size ≤ UInt64.size)
    (hfits : Launch.blocksFor (min len probe.len) p.block.toNat < UInt32.size)
    (hd : d.OneWorker) (hcount : (p.results table probe build len).length < UInt64.size)
    (pairs : Array (Pair S)) :
    (Emit.Numbered ((p.results table probe build len).take pairs.size) ∧
      ∃ output d', p.materialize table probe build len pairs d = .ok output d' ∧
        output.Filled (p.results table probe build len) pairs) ∨
    (¬Emit.Numbered ((p.results table probe build len).take pairs.size) ∧
      ∃ d', p.materialize table probe build len pairs d =
        .error (.device (.launchFailed p.kernelName (.rowOverflow (8 * Word.bytes S)))) d') := by
  obtain ⟨d', hprobe⟩ := probe_of_fits Emit.write ⟨0, pairs⟩ hc hrows hblock hsize hfits hd
  have hzero : (0 : UInt64).toNat = 0 := rfl
  have hcases := Emit.each_write (p.results table probe build len) ⟨0, pairs⟩
    (by rwa [hzero, Nat.zero_add])
  rw [hzero, Nat.sub_zero] at hcases
  refine hcases.imp (fun ⟨hnumbered, heach⟩ => ⟨hnumbered, ?_⟩)
    (fun ⟨hnumbered, b', heach⟩ => ⟨hnumbered, d', ?_⟩)
  · rw [heach] at hprobe
    exact ⟨_, d', hprobe, PairBuffer.filled_all_writing hcount hnumbered⟩
  · rw [heach] at hprobe
    exact hprobe

end OneWorker

/-! ## Agreement -/

variable [JoinKey K]

theorem sum_fits_of_host (hhost : probe.len * (JoinKey.type K).bytes ≤ maxHostBytes) (len : Nat) :
    min len probe.len + UInt32.size ≤ UInt64.size := by
  have hbytes : 4 ≤ (JoinKey.type K).bytes := by cases JoinKey.type K <;> decide
  have hlen := Nat.mul_le_mul_left probe.len hbytes
  have hmax : maxHostBytes = 9223372036854775807 := rfl
  have hword : UInt32.size = 4294967296 := rfl
  have hword64 : UInt64.size = 18446744073709551616 := rfl
  omega

/-- Probing a table of rows of `build`, in whatever order they were inserted and whether or not all
of them found a slot, with probe keys that host memory holds.  With a keying that gives equal keys
equal hashes, the results are a probe row with each entry of the table that it agrees with.

If a grid has room for the probe rows, then on one worker the counting probe counts the results.  If
also those that the buffer has slots for have a row index, the writing probe counts them, too, and
fills the buffer with them: it has all of them exactly if the cursor is not beyond its end, and a
longer buffer has as many or more of the same list.  If they do not, the writing probe fails.  If
there are too many probe rows for a grid, both probes fail. -/
theorem materialize_agrees {capacity : Nat} {keying : Keying K} {inserted : List (K × S)}
    (hpos : 0 < capacity)
    (hinserted : ∀ e ∈ inserted, e.1 ≠ JoinKey.reserved K ∧ Word.toNat e.2 < build.len)
    (htable : table = (Multimap.free capacity keying).insertAll inserted)
    (hc : probe.Compatible build) (hblock : p.block ≠ 0)
    (hhost : probe.len * (JoinKey.type K).bytes ≤ maxHostBytes) (len : Nat)
    {results : List (Nat × S)} (hresults : results = p.results table probe build len)
    (hcount : results.length < UInt64.size) :
    (keying.Lawful → results = NestedLoop.entryPairs p.joinType keying.equal probe build
      ((Multimap.free capacity keying).accepted inserted) (min len probe.len)) ∧
    (Launch.blocksFor (min len probe.len) p.block.toNat < UInt32.size →
      (∀ d : Device, d.OneWorker → ∃ n d',
        p.count table probe build len d = .ok n d' ∧ n.toNat = results.length) ∧
      (∀ (d : Device) (pairs : Array (Pair S)), d.OneWorker →
        Emit.Numbered (results.take pairs.size) → ∃ output d',
          p.materialize table probe build len pairs d = .ok output d' ∧
          output.Filled results pairs ∧
          (output.written = results ↔ output.cursor.toNat ≤ output.pairs.size) ∧
          ∀ (d₁ : Device) (longer : Array (Pair S)), d₁.OneWorker → pairs.size ≤ longer.size →
            Emit.Numbered (results.take longer.size) → ∃ output₁ d₁',
              p.materialize table probe build len longer d₁ = .ok output₁ d₁' ∧
              output.written <+: output₁.written) ∧
      (∀ (d : Device) (pairs : Array (Pair S)), d.OneWorker →
        ¬Emit.Numbered (results.take pairs.size) → ∃ e d',
          p.materialize table probe build len pairs d = .error e d' ∧
          e.kind = .launchFailed)) ∧
    (UInt32.size ≤ Launch.blocksFor (min len probe.len) p.block.toNat →
      ∃ e : JoinError, e.kind = .integerOverflow ∧
        ∀ d : Device, p.count table probe build len d = .error e d ∧
          ∀ pairs, p.materialize table probe build len pairs d = .error e d) := by
  obtain ⟨hholds, hkeying, haccepted⟩ := Multimap.holds_accepted_rows hpos keying hinserted
  rw [← htable] at hholds hkeying
  have hrows : table.RowsBelow build.len := hholds.rowsBelow haccepted
  have hsize := sum_fits_of_host hhost len
  subst hresults
  refine ⟨fun hlaw => ?_, fun hfits => ?_, fun hmany => ?_⟩
  · rw [results_eq hc hholds (hkeying ▸ hlaw) haccepted, hkeying]
  · have hmaterialize := fun (d : Device) (pairs : Array (Pair S)) (hd : d.OneWorker) =>
      materialize_results hc hrows hblock hsize hfits hd hcount pairs
    refine ⟨fun d hd => count_results hc hrows hblock hsize hfits hd hcount,
      fun d pairs hd hnumbered => ?_, fun d pairs hd hnot => ?_⟩
    · obtain ⟨-, output, d', hok, hfilled⟩ :=
        (hmaterialize d pairs hd).resolve_right fun h => h.1 hnumbered
      refine ⟨output, d', hok, hfilled, hfilled.complete_iff,
        fun d₁ longer hd₁ hlonger hnumbered₁ => ?_⟩
      obtain ⟨-, output₁, d₁', hok₁, hfilled₁⟩ :=
        (hmaterialize d₁ longer hd₁).resolve_right fun h => h.1 hnumbered₁
      exact ⟨output₁, d₁', hok₁, hfilled.prefix_written hfilled₁ hlonger⟩
    · obtain ⟨-, d', herror⟩ := (hmaterialize d pairs hd).resolve_left fun h => hnot h.1
      exact ⟨_, d', herror, rfl⟩
  · exact ⟨_, rfl, fun d => ⟨probe_of_not_fits _ _ hblock hsize hmany,
      fun pairs => probe_of_not_fits _ _ hblock hsize hmany⟩⟩

/-- The last of four rows finds no slot. -/
def crowdedBuild : KeyColumns UInt32 := ⟨#[5, 8, 5, 7], [⟨.i32, #[1, 1, 2, 1]⟩]⟩

def crowdedTable : Multimap UInt32 UInt32 :=
  (Multimap.free 3 Multimap.wrappedKeying).insertAll [(5, 0), (8, 1), (5, 2), (7, 3)]

def crowdedProbe : KeyColumns UInt32 := ⟨#[5, 7, 5], [⟨.i32, #[1, 1, 2]⟩]⟩

/-- Rows 0 and 2 each agree with one of the two rows under their key, and the row with the key of
row 1 is not in the table.  Two of the three results fit. -/
theorem materialize_agrees_crowded :
    ∃ output d', Prober.materialize ⟨.left, 2⟩ crowdedTable crowdedProbe crowdedBuild 9
        #[⟨7, 7⟩, ⟨7, 7⟩] (Device.forwards 0) = .ok output d' ∧
      output.cursor.toNat = 3 ∧ output.written = [(0, 0), (1, 4294967295)] ∧
      ∃ output₁ d₁', Prober.materialize ⟨.left, 2⟩ crowdedTable crowdedProbe crowdedBuild 9
          #[⟨7, 7⟩, ⟨7, 7⟩, ⟨7, 7⟩, ⟨7, 7⟩] (Device.forwards 0) = .ok output₁ d₁' ∧
        output.written <+: output₁.written := by
  have hresults : [(0, 0), (1, 4294967295), (2, 2)] =
      Prober.results ⟨.left, 2⟩ crowdedTable crowdedProbe crowdedBuild 9 := by decide
  have hc : crowdedProbe.Compatible crowdedBuild := KeyColumns.validate_ok (by decide)
  have hinserted : ∀ e ∈ [(5, 0), (8, 1), (5, 2), (7, 3)],
      e.1 ≠ JoinKey.reserved UInt32 ∧ Word.toNat (e.2 : UInt32) < crowdedBuild.len := by
    intro e he
    simp only [List.mem_cons, List.not_mem_nil, or_false] at he
    obtain rfl | rfl | rfl | rfl := he <;> decide
  have hnumbered : ∀ n, Emit.Numbered
      (List.take n [(0, 0), (1, 4294967295), (2, (2 : UInt32))]) := fun n row hrow => by
    have hlt : row.1 < 3 := by
      have hmem := List.mem_of_mem_take hrow
      simp only [List.mem_cons, List.not_mem_nil, or_false] at hmem
      obtain rfl | rfl | rfl := hmem <;> decide
    exact Nat.lt_trans hlt (by decide)
  obtain ⟨-, hfits, -⟩ := materialize_agrees (p := ⟨.left, 2⟩) (by decide) hinserted
    (rfl : crowdedTable = _) hc (by decide) (by decide) 9 hresults (by decide)
  obtain ⟨-, hmaterialize, -⟩ := hfits (by decide)
  obtain ⟨output, d', hok, hfilled, -, hlonger⟩ := hmaterialize (Device.forwards 0)
    #[⟨7, 7⟩, ⟨7, 7⟩] (Device.forwards_oneWorker 0) (hnumbered _)
  exact ⟨output, d', hok, hfilled.cursor, hfilled.written_eq,
    hlonger _ _ (Device.forwards_oneWorker 0) (by decide) (hnumbered _)⟩

/-- The secondary column ends before the keys do. -/
def shortProbe : KeyColumns UInt32 := ⟨#[1, 1], [⟨.i32, #[5]⟩]⟩

def shortBuild : KeyColumns UInt32 := ⟨#[1], [⟨.i32, #[5]⟩]⟩

def shortTable : Multimap UInt32 UInt32 :=
  (Multimap.free 1 Multimap.wrappedKeying).insertAll [(1, 0)]

/-- As many rows as a 32-bit word has values. -/
def longProbe : KeyColumns UInt32 := ⟨Array.replicate 4294967296 5, []⟩

def emptyTable : Multimap UInt32 UInt32 := Multimap.free 1 Multimap.wrappedKeying

theorem longProbe_len : longProbe.len = 4294967296 := Array.size_replicate

/-- Probes of which no count comes, or no rows.  Row 1 has no secondary key although the column's
type is that of its counterpart; a grid has no room for so many rows in blocks of one thread; and in
blocks of two there is a slot for the last of these rows, but it has no row index. -/
theorem materialize_exceptions :
    (∃ d', Prober.count ⟨.inner, 1⟩ shortTable shortProbe shortBuild 2 (Device.forwards 0) =
      .error (.device (.launchFailed "probe_inner_join" (.readOutOfBounds 1 1))) d') ∧
    (∃ e : JoinError, e.kind = .integerOverflow ∧
      Prober.count ⟨.left, 1⟩ emptyTable longProbe ⟨#[], []⟩ 4294967296 (Device.forwards 0) =
        .error e (Device.forwards 0)) ∧
    ((Prober.mk .left 2).results emptyTable longProbe ⟨#[], []⟩ 4294967296).length = 4294967296 ∧
    ∃ d', Prober.materialize ⟨.left, 2⟩ emptyTable longProbe ⟨#[], []⟩ 4294967296
        (Array.replicate 4294967296 ⟨0, 0⟩) (Device.forwards 0) =
      .error (.device (.launchFailed "probe_left_join" (.rowOverflow 32))) d' := by
  have hlen : min 4294967296 longProbe.len = 4294967296 := by rw [longProbe_len, Nat.min_self]
  have hsize : min 4294967296 longProbe.len + UInt32.size ≤ UInt64.size := by
    rw [hlen]
    decide
  have hresults := results_free (S := UInt32) Nat.one_pos Multimap.wrappedKeying 2 longProbe
    ⟨#[], []⟩ 4294967296
  rw [hlen] at hresults
  have hlength : ((Prober.mk .left 2).results emptyTable longProbe ⟨#[], []⟩ 4294967296).length =
      4294967296 := by
    rw [emptyTable, hresults, List.length_map, List.length_range]
  refine ⟨⟨_, rfl⟩, ⟨_, rfl, probe_of_not_fits _ _ (by decide) hsize ?_⟩, hlength, ?_⟩
  · refine Nat.lt_of_not_le fun hfew => ?_
    have hblocks := ((Launch.blocksFor_le_iff (by decide)).mp hfew).2
    rw [hlen] at hblocks
    exact absurd hblocks (by decide)
  · have hc : longProbe.Compatible ⟨#[], []⟩ := KeyColumns.validate_ok rfl
    have hrows : emptyTable.RowsBelow 0 :=
      (Multimap.holds_free Nat.one_pos _).rowsBelow fun _ he => absurd he List.not_mem_nil
    have hfits : Launch.blocksFor (min 4294967296 longProbe.len) (2 : UInt32).toNat <
        UInt32.size := by
      rw [hlen]
      exact Nat.lt_succ_of_le ((Launch.blocksFor_le_iff (by decide)).mpr (by decide))
    have hcases := materialize_results (p := ⟨.left, 2⟩) hc hrows (by decide) hsize hfits
      (Device.forwards_oneWorker 0) (by rw [hlength]; decide) (Array.replicate 4294967296 ⟨0, 0⟩)
    refine (hcases.resolve_left fun ⟨hnumbered, _⟩ => ?_).2
    rw [Array.size_replicate, List.take_of_length_le (Nat.le_of_eq hlength)] at hnumbered
    have hlast : (4294967295, (4294967295 : UInt32)) ∈
        (Prober.mk .left 2).results emptyTable longProbe ⟨#[], []⟩ 4294967296 := by
      rw [emptyTable, hresults]
      exact List.mem_map.mpr ⟨4294967295, List.mem_range.mpr (by decide), rfl⟩
    exact absurd (hnumbered _ hlast) (by decide)

end Prober
end GridOps
