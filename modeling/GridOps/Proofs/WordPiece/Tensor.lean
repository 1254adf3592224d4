import GridOps.Proofs.WordPiece.Fill

/-!
Reading a tensor back.

The metadata of a row name its string and the places that it does not share with the row before.
The rows of a string are consecutive (`rowsNaming_ofStrings`), and the tokens at these places of its
rows are the tokens of the string (`ownTokens?_ofStrings`): the numbers of rows, their starts and
their ends agree for every length of the string and every stride.
-/

namespace GridOps
namespace Tensor

/-- The string that a row names. -/
def stringOf? (t : Tensor) (row : Nat) : Option Nat :=
  match t.rowMetadata? row with
  | .ok (some metadata) => metadata[0]?.map UInt32.toNat
  | _ => none

def rowsNaming (t : Tensor) (i : Nat) : List Nat :=
  (List.range t.rows).filter fun row => t.stringOf? row = some i

/-- The tokens of a row at the places from the first to the last that its metadata name, if it has
these places. -/
def ownTokens? (t : Tensor) (row : Nat) : Option (List UInt32) :=
  match t.rowIds? row, t.rowMetadata? row with
  | some ids, .ok (some [_, first, last]) =>
    if first.toNat ≤ last.toNat ∧ last.toNat < ids.length then
      some ((ids.take (last.toNat + 1)).drop first.toNat)
    else none
  | _, _ => none

variable {o : TokenizerOptions} {strings : List (List UInt32)} {rows : List Row} {row : Row}
  {tokens : List UInt32} {i r k : Nat}

/-! ## A row -/

/-- A row whose places end below the top of the sizes is asked for by the places. -/
theorem rowIds?_eq {t : Tensor} (h : k * t.width + t.width < UInt64.size) :
    t.rowIds? k = slice? t.ids (k * t.width) (k * t.width + t.width) := by
  unfold rowIds?
  rw [Size.of?_of_lt (Nat.lt_of_le_of_lt (Nat.le_add_right ..) h)]
  dsimp only [Option.bind_eq_bind, Option.bind_some]
  rw [Size.of?_of_lt h]
  rfl

theorem rowMetadata?_eq {t : Tensor}
    (h : k * metadataColumns + metadataColumns < UInt64.size) :
    t.rowMetadata? k = .ok (slice? t.metadata (k * metadataColumns)
      (k * metadataColumns + metadataColumns)) := by
  unfold rowMetadata?
  rw [Size.of?_of_lt (Nat.lt_of_le_of_lt (Nat.le_add_right ..) h)]
  dsimp only
  rw [Size.add_of_lt h]
  rfl

theorem slice?_ofRows (h : rows[k]? = some row) (b : Buffer) :
    slice? ((ofRows o rows).get b) (k * columns o b) (k * columns o b + columns o b) =
      some (row.cells o b) := by
  obtain ⟨hk, -⟩ := List.getElem?_eq_some_iff.mp h
  have hle : (k + 1) * columns o b ≤ ((ofRows o rows).get b).size := by
    rw [get_ofRows, List.size_toArray, length_contents]
    exact Nat.mul_le_mul_right _ hk
  rw [← Nat.succ_mul, slice?, if_pos hle, get_ofRows, Array.toList_extract,
    List.extract_eq_drop_take', extract_contents h]

theorem rowIds?_ofRows (hcells : rows.length * o.sequenceLength ≤ Device.maxBytes)
    (h : rows[k]? = some row) : (ofRows o rows).rowIds? k = some (row.cells o .ids) := by
  obtain ⟨hk, -⟩ := List.getElem?_eq_some_iff.mp h
  have hlt : (k + 1) * o.sequenceLength < UInt64.size :=
    Nat.lt_of_le_of_lt (Nat.le_trans (Nat.mul_le_mul_right _ hk) hcells) (by decide)
  rw [Nat.succ_mul] at hlt
  exact (rowIds?_eq hlt).trans (slice?_ofRows h .ids)

theorem rowMetadata?_ofRows (hrows : rows.length < UInt32.size) (h : rows[k]? = some row) :
    (ofRows o rows).rowMetadata? k =
      .ok (some (rowMetadata o row.tokens row.string row.index)) := by
  obtain ⟨hk, -⟩ := List.getElem?_eq_some_iff.mp h
  have hlt : k * metadataColumns + metadataColumns < UInt64.size := by
    show k * 3 + 3 < UInt64.size
    have hsize : UInt32.size = 4294967296 := rfl
    have hsize64 : UInt64.size = 18446744073709551616 := rfl
    omega
  rw [rowMetadata?_eq hlt]
  exact congrArg Except.ok (slice?_ofRows h .metadata)

/-- The row whose metadata would start at the top of the sizes. -/
def topRow : Nat := (UInt64.size - 1) / metadataColumns

theorem topRow_mul : topRow * metadataColumns = UInt64.size - 1 := by decide

/-- Asking for the metadata of a row that the tensor does not have stops for that row, and finds
none for every other. -/
theorem rowMetadata?_beyond (hk : rows.length ≤ k) :
    (ofRows o rows).rowMetadata? k =
      if k = topRow then .error .additionOverflow else .ok none := by
  have htop := topRow_mul
  have hcolumns : metadataColumns = 3 := rfl
  have hsize64 : UInt64.size = 18446744073709551616 := rfl
  rw [hcolumns, hsize64] at htop
  unfold rowMetadata?
  rw [hcolumns]
  rcases Nat.lt_or_ge (k * 3) UInt64.size with hfirst | hfirst
  · rw [Size.of?_of_lt hfirst]
    dsimp only
    rcases Nat.lt_or_ge (k * 3 + 3) UInt64.size with hlast | hlast
    · have hsize : (ofRows o rows).metadata.size < k * 3 + 3 := by
        show (contents o rows .metadata).length < _
        rw [length_contents]
        show rows.length * 3 < _
        omega
      rw [Size.add_of_lt hlast, if_neg (by omega)]
      show Except.ok (slice? ..) = _
      rw [slice?, if_neg (Nat.not_le_of_lt hsize)]
    · rw [Size.add_of_le hlast, if_pos (by omega)]
      rfl
  · rw [Size.of?_of_le hfirst, if_neg (by omega)]

/-- A row names the string whose row it is. -/
theorem stringOf?_ofRows (hrows : rows.length < UInt32.size)
    (hstring : ∀ row ∈ rows, row.string < UInt32.size) (k : Nat) :
    (ofRows o rows).stringOf? k = rows[k]?.map Row.string := by
  cases h : rows[k]? with
  | some row =>
    have hlt := hstring row (List.mem_of_getElem? h)
    rw [stringOf?, rowMetadata?_ofRows hrows h]
    exact congrArg some (UInt32.toNat_ofNat_of_lt' hlt)
  | none =>
    have hk := List.getElem?_eq_none_iff.mp h
    rw [stringOf?, rowMetadata?_beyond hk]
    by_cases htop : k = topRow
    · rw [if_pos htop]
      rfl
    · rw [if_neg htop]
      rfl

theorem ownTokens?_eq {t : Tensor} {ids : List UInt32} {string first last : UInt32}
    (hids : t.rowIds? k = some ids)
    (hmetadata : t.rowMetadata? k = .ok (some [string, first, last]))
    (hle : first.toNat ≤ last.toNat) (hlt : last.toNat < ids.length) :
    t.ownTokens? k = some ((ids.take (last.toNat + 1)).drop first.toNat) := by
  rw [ownTokens?, hids, hmetadata]
  exact if_pos ⟨hle, hlt⟩

/-- The places that a row names are those that the row before does not have. -/
theorem ownTokens?_ofRows (hrows : rows.length < UInt32.size)
    (hcells : rows.length * o.sequenceLength ≤ Device.maxBytes) (ho : o.Strides)
    (hlt : tokens.length < UInt32.size) (hne : tokens ≠ [])
    (h : rows[k]? = some ⟨i, tokens, r⟩) (hr : r < o.rowsFor tokens.length) :
    (ofRows o rows).ownTokens? k = some (own o tokens r) := by
  -- A row's own places end within the string, so 32 bits hold both of them.
  have hstart := ownStart_lt ho hne hr
  have hlength := length_rowTokens o tokens r
  have hfirst : (UInt32.ofNat (ownStart o r)).toNat = ownStart o r :=
    UInt32.toNat_ofNat_of_lt' (by omega)
  have hlast : (UInt32.ofNat ((rowTokens o tokens r).length - 1)).toNat =
      (rowTokens o tokens r).length - 1 := UInt32.toNat_ofNat_of_lt' (by omega)
  have hplaces : (Row.cells o ⟨i, tokens, r⟩ .ids).take (rowTokens o tokens r).length =
      rowTokens o tokens r := List.take_left
  have hmetadata : (ofRows o rows).rowMetadata? k = .ok (some [UInt32.ofNat i,
      UInt32.ofNat (ownStart o r), UInt32.ofNat ((rowTokens o tokens r).length - 1)]) :=
    rowMetadata?_ofRows hrows h
  have hwidth : (Row.cells o ⟨i, tokens, r⟩ .ids).length = o.sequenceLength := Row.length_cells ..
  rw [ownTokens?_eq (rowIds?_ofRows hcells h) hmetadata (by omega) (by omega), hfirst, hlast,
    Nat.sub_add_cancel (by omega), hplaces]
  rfl

/-! ## The rows of a string -/

theorem length_le_rows (o : TokenizerOptions) (strings : List (List UInt32)) :
    strings.length ≤ (rowsOf o strings).flatten.length := by
  rw [List.length_flatten, ← length_rowsOf o strings, ← List.length_map (f := List.length)]
  refine List.length_le_sum_of_one_le _ fun n hn => ?_
  obtain ⟨rows, hrows, rfl⟩ := List.mem_map.mp hn
  obtain ⟨i, hi⟩ := List.mem_iff_getElem?.mp hrows
  obtain ⟨tokens, -, rfl⟩ := exists_of_mem_rowsOf hi
  rw [length_stringRows]
  exact o.rowsFor_pos _

theorem string_of_mem {rows : List Row} (h : (rowsOf o strings)[i]? = some rows) :
    ∀ row ∈ rows, row.string = i := by
  obtain ⟨tokens, -, rfl⟩ := exists_of_mem_rowsOf h
  intro row hrow
  obtain ⟨r, -, rfl⟩ := List.mem_map.mp hrow
  rfl

section Strings

variable (hrows : (rowsOf o strings).flatten.length < UInt32.size)
include hrows

theorem stringOf?_ofStrings (k : Nat) :
    (ofStrings o strings).stringOf? k = (rowsOf o strings).flatten[k]?.map Row.string := by
  refine stringOf?_ofRows hrows (fun row hrow => ?_) k
  obtain ⟨rows, hmem, hrow⟩ := List.mem_flatten.mp hrow
  obtain ⟨i, hi⟩ := List.mem_iff_getElem?.mp hmem
  obtain ⟨hlt, -⟩ := List.getElem?_eq_some_iff.mp hi
  have hle := length_le_rows o strings
  rw [length_rowsOf] at hlt
  rw [string_of_mem hi row hrow]
  omega

/-- The rows of a string are consecutive. -/
theorem rowsNaming_ofStrings (h : strings[i]? = some tokens) :
    (ofStrings o strings).rowsNaming i =
      List.range' (startOf (rowsOf o strings) i) (o.rowsFor tokens.length) := by
  rw [rowsNaming, ← length_stringRows o i tokens,
    ← filter_range_label (fun i rows hi => string_of_mem hi) (getElem?_rowsOf h)]
  exact List.filter_congr fun k _ => by rw [stringOf?_ofStrings hrows]

/-- The rows of a string with tokens have of their own what is kept of it. -/
theorem ownTokens?_ofStrings
    (hcells : (rowsOf o strings).flatten.length * o.sequenceLength ≤ Device.maxBytes)
    (ho : o.Strides) (htokens : strings.flatten.length < UInt32.size)
    (h : strings[i]? = some tokens) (hne : tokens ≠ []) :
    ∃ parts : List (List UInt32), ((ofStrings o strings).rowsNaming i).map
      (ofStrings o strings).ownTokens? = parts.map some ∧ parts.flatten = o.kept tokens := by
  have hlt := Nat.lt_of_le_of_lt (length_le_of_mem (List.mem_of_getElem? h)) htokens
  refine ⟨(List.range (o.rowsFor tokens.length)).map (own o tokens), ?_,
    flatMap_own_rowsFor ho tokens⟩
  rw [rowsNaming_ofStrings hrows h, List.range'_eq_map_range, List.map_map, List.map_map]
  refine List.map_congr_left fun r hr => ?_
  have hr := List.mem_range.mp hr
  exact ownTokens?_ofRows hrows hcells ho hlt hne (getElem?_flatten_rowsOf h hr) hr

/-- A row names the string to whose rows it belongs. -/
theorem stringOf?_eq_some_iff :
    (ofStrings o strings).stringOf? k = some i ↔ ∃ tokens r, strings[i]? = some tokens ∧
      r < o.rowsFor tokens.length ∧ k = startOf (rowsOf o strings) i + r := by
  rw [stringOf?_ofStrings hrows]
  constructor
  · intro h
    obtain ⟨row, hrow, rfl⟩ := Option.map_eq_some_iff.mp h
    obtain ⟨hk, -⟩ := List.getElem?_eq_some_iff.mp hrow
    obtain ⟨i, tokens, r, htokens, hr, rfl⟩ := exists_string hk
    rw [getElem?_flatten_rowsOf htokens hr] at hrow
    cases hrow
    exact ⟨tokens, r, htokens, hr, rfl⟩
  · rintro ⟨tokens, r, htokens, hr, rfl⟩
    rw [getElem?_flatten_rowsOf htokens hr]
    rfl

theorem stringOf?_mono {k' i' : Nat} (hk : k ≤ k') (h : (ofStrings o strings).stringOf? k = some i)
    (h' : (ofStrings o strings).stringOf? k' = some i') : i ≤ i' := by
  obtain ⟨tokens, r, htokens, hr, rfl⟩ := (stringOf?_eq_some_iff hrows).mp h
  obtain ⟨tokens', r', htokens', hr', rfl⟩ := (stringOf?_eq_some_iff hrows).mp h'
  have hend := startOf_succ (getElem?_rowsOf (o := o) htokens')
  rw [length_stringRows] at hend
  have hlt : startOf (rowsOf o strings) i < startOf (rowsOf o strings) (i' + 1) := by omega
  exact Nat.le_of_lt_succ (lt_of_startOf_lt hlt)

/-- A string without tokens is one whose rows have no place in use. -/
theorem eq_nil_iff_mask (ho : o.Strides) (h : strings[i]? = some tokens) :
    tokens = [] ↔ ∀ row ∈ (ofStrings o strings).rowsNaming i,
      (ofStrings o strings).mask[row * o.sequenceLength]? = some 0 := by
  have hpos : 0 < o.sequenceLength := Nat.le_trans ho.1 ho.2
  have hcell : ∀ r, r < o.rowsFor tokens.length →
      (ofStrings o strings).mask[(startOf (rowsOf o strings) i + r) * o.sequenceLength]? =
        (Row.cells o ⟨i, tokens, r⟩ .mask)[0]? := fun r hr =>
    List.getElem?_toArray.trans
      (getElem?_contents (b := .mask) (j := 0) (getElem?_flatten_rowsOf h hr) hpos)
  rw [rowsNaming_ofStrings hrows h]
  constructor
  · rintro rfl row hrow
    obtain ⟨r, hr, rfl⟩ := List.mem_range'.mp hrow
    rw [Nat.one_mul, hcell r hr]
    exact Row.getElem?_cells_rest (by simp [Row.written, rowTokens]) hpos
  · intro hzero
    by_contra hne
    have hfirst := o.rowsFor_pos tokens.length
    have hmask := hzero _ (List.mem_range'_1.mpr ⟨Nat.le_refl _, Nat.lt_add_of_pos_right hfirst⟩)
    have hlength := Nat.zero_lt_of_lt (ownStart_lt ho hne hfirst)
    rw [← Nat.add_zero (startOf _ i), hcell 0 hfirst,
      Row.getElem?_cells_written (by simpa [Row.written] using hlength)] at hmask
    simp [Row.written, hlength] at hmask

end Strings

/-- What is kept of a string is the same in every batch that has the same tensor. -/
theorem exists_kept_of_eq {strings' : List (List UInt32)}
    (hcells : (rowsOf o strings).flatten.length * o.sequenceLength ≤ Device.maxBytes)
    (ho : o.Strides)
    (htokens : strings.flatten.length < UInt32.size)
    (htokens' : strings'.flatten.length < UInt32.size)
    (hrows : (rowsOf o strings).flatten.length < UInt32.size)
    (hrows' : (rowsOf o strings').flatten.length < UInt32.size)
    (heq : ofStrings o strings = ofStrings o strings') (h : strings[i]? = some tokens) :
    ∃ tokens', strings'[i]? = some tokens' ∧ o.kept tokens = o.kept tokens' := by
  have hname := (stringOf?_eq_some_iff hrows).mpr ⟨tokens, 0, h, o.rowsFor_pos _, rfl⟩
  have hnil := eq_nil_iff_mask hrows ho h
  rw [heq] at hname hnil
  obtain ⟨tokens', -, h', -, -⟩ := (stringOf?_eq_some_iff hrows').mp hname
  rw [← eq_nil_iff_mask hrows' ho h'] at hnil
  refine ⟨tokens', h', ?_⟩
  -- A string without tokens has the same row as one whose only token is zero, but for the mask.
  by_cases hne : tokens = []
  · rw [hne, hnil.mp hne]
  · have hcells' : (rowsOf o strings').flatten.length * o.sequenceLength ≤ Device.maxBytes := by
      have hlength : (rowsOf o strings).flatten.length = (rowsOf o strings').flatten.length :=
        congrArg Tensor.rows heq
      rwa [← hlength]
    obtain ⟨parts, hparts, hkept⟩ := ownTokens?_ofStrings hrows hcells ho htokens h hne
    obtain ⟨parts', hparts', hkept'⟩ :=
      ownTokens?_ofStrings hrows' hcells' ho htokens' h' (mt hnil.mpr hne)
    rw [heq, hparts'] at hparts
    rw [← hkept, ← hkept', List.map_injective_iff.mpr (fun _ _ => Option.some.inj) hparts]

/-- The number of strings, and what is kept of each, can be told from the tensor. -/
theorem map_kept_of_eq {strings' : List (List UInt32)}
    (hcells : (rowsOf o strings).flatten.length * o.sequenceLength ≤ Device.maxBytes)
    (ho : o.Strides)
    (htokens : strings.flatten.length < UInt32.size)
    (htokens' : strings'.flatten.length < UInt32.size)
    (hrows : (rowsOf o strings).flatten.length < UInt32.size)
    (hrows' : (rowsOf o strings').flatten.length < UInt32.size)
    (heq : ofStrings o strings = ofStrings o strings') :
    strings.map o.kept = strings'.map o.kept := by
  have hlength : (rowsOf o strings).flatten.length = (rowsOf o strings').flatten.length :=
    congrArg Tensor.rows heq
  refine List.ext_getElem? fun i => ?_
  rw [List.getElem?_map, List.getElem?_map]
  cases h : strings[i]? with
  | some tokens =>
    obtain ⟨tokens', h', hkept⟩ := exists_kept_of_eq hcells ho htokens htokens' hrows hrows' heq h
    rw [h', Option.map_some, Option.map_some, hkept]
  | none =>
    cases h' : strings'[i]? with
    | none => rfl
    | some tokens' =>
      obtain ⟨tokens, hsome, -⟩ :=
        exists_kept_of_eq (hlength ▸ hcells) ho htokens' htokens hrows' hrows heq.symm h'
      rw [h] at hsome
      cases hsome

/-- Whenever a tensor is built, every string has rows that name it, which are consecutive and
ordered by string, and the places that the metadata of these rows tell hold the tokens of the
string, each once and in order, or its first tokens if strings are cut.  So two batches with the
same tensor are the same, up to what is cut. -/
theorem ofTokens_rows {t : Tensor} {d d' : Device} (ho : o.Strides)
    (htokens : strings.flatten.length < UInt32.size) (hd : d.RunsAll)
    (h : ofTokens o (.ofStrings strings) d = .ok t d') :
    (∀ i tokens, strings[i]? = some tokens →
      (∃ first count, 0 < count ∧ t.rowsNaming i = List.range' first count) ∧
      (tokens ≠ [] → ∃ parts : List (List UInt32),
        (t.rowsNaming i).map t.ownTokens? = parts.map some ∧ parts.flatten = o.kept tokens)) ∧
    (∀ row < t.rows, ∃ i < strings.length, t.stringOf? row = some i) ∧
    (∀ row row' i i', row ≤ row' → t.stringOf? row = some i → t.stringOf? row' = some i' →
      i ≤ i') ∧
    ∀ (strings' : List (List UInt32)) (d₁ d₂ : Device), strings'.flatten.length < UInt32.size →
      d₁.RunsAll → ofTokens o (.ofStrings strings') d₁ = .ok t d₂ →
      strings'.map o.kept = strings.map o.kept := by
  obtain ⟨hrows, hcells, rfl⟩ := ofTokens_ok ho htokens hd h
  refine ⟨fun i tokens hi => ⟨?_, fun hne => ?_⟩, fun row hrow => ?_,
    fun row row' i i' hle hi hi' => stringOf?_mono hrows hle hi hi',
    fun strings' d₁ d₂ htokens' hd₁ h' => ?_⟩
  · exact ⟨_, _, o.rowsFor_pos _, rowsNaming_ofStrings hrows hi⟩
  · exact ownTokens?_ofStrings hrows hcells ho htokens hi hne
  · obtain ⟨i, tokens, r, hi, hr, hrow⟩ := exists_string hrow
    obtain ⟨hlt, -⟩ := List.getElem?_eq_some_iff.mp hi
    exact ⟨i, hlt, (stringOf?_eq_some_iff hrows).mpr ⟨tokens, r, hi, hr, hrow⟩⟩
  · obtain ⟨hrows', hcells', heq⟩ := ofTokens_ok ho htokens' hd₁ h'
    exact map_kept_of_eq hcells' ho htokens' htokens hrows' hrows heq.symm

def sampleLayout : TokenizerOptions :=
  { TokenizerOptions.default with sequenceLength := 3, stride := 2, block := 2 }

/-- The second row of the first string starts with the last token of its first row, which counts
once. -/
theorem ofTokens_rows_overlapping :
    ∃ (t : Tensor) (d : Device),
      ofTokens sampleLayout (.ofStrings [[1, 2, 3, 4, 5], [], [6]]) (.backwards 1000) = .ok t d ∧
      t.rowIds? 1 = some [3, 4, 5] ∧ t.rowsNaming 0 = [0, 1] ∧
      ∃ parts : List (List UInt32), (t.rowsNaming 0).map t.ownTokens? = parts.map some ∧
        parts.flatten = [1, 2, 3, 4, 5] := by
  obtain ⟨t, d, h, hrows⟩ := DeviceM.exists_of_returns
    (fun t => t.rowIds? 1 = some [3, 4, 5] ∧ t.rowsNaming 0 = [0, 1])
    (ofTokens sampleLayout (.ofStrings [[1, 2, 3, 4, 5], [], [6]]) (.backwards 1000))
    (by decide +kernel)
  obtain ⟨hids, hnames⟩ := of_decide_eq_true hrows
  obtain ⟨hstrings, -⟩ := ofTokens_rows ⟨by decide, by decide⟩ (by decide)
    (Device.backwards_runsAll 1000) h
  exact ⟨t, d, h, hids, hnames, (hstrings 0 _ rfl).2 (List.cons_ne_nil 1 _)⟩

end Tensor
end GridOps
