import GridOps.Proofs.WordPiece.Tensor
import Mathlib.Data.Finset.Card
import Mathlib.Order.Bounds.Basic
import Mathlib.Order.Interval.Finset.Nat

/-!
What the rows of a tensor show of a string.

A string needs the least number of rows that reach its end, or one if it is cut (`NeedsRows`), and
the number of rows that is computed for it is this number.  Row `r` shows the tokens from place
`r * stride` on, as far as the row is wide and the string long (`shown_ofStrings`), so the next row
shows a token that it does not, and the two have `sequenceLength - stride` places in common.
-/

namespace GridOps

/-! ## The rows that a string needs -/

namespace TokenizerOptions

variable {o : TokenizerOptions} {n k : Nat}

/-- A string of `n` tokens needs `k` rows. -/
def NeedsRows (o : TokenizerOptions) (n k : Nat) : Prop :=
  if n ≤ o.sequenceLength ∨ o.truncate then k = 1
  else IsLeast {k | n ≤ (k - 1) * o.stride + o.sequenceLength} k

theorem needsRows_rowsFor (ho : o.Strides) (n : Nat) : o.NeedsRows n (o.rowsFor n) := by
  unfold NeedsRows
  by_cases hone : n ≤ o.sequenceLength ∨ o.truncate
  · rw [if_pos hone, rowsFor, if_pos hone]
  · rw [if_neg hone]
    rw [not_or, Bool.not_eq_true] at hone
    obtain ⟨hlong, htruncate⟩ := hone
    constructor
    · have hreach := le_reach ho htruncate n
      rwa [Nat.add_comm] at hreach
    · intro k hk
      change n ≤ (k - 1) * o.stride + o.sequenceLength at hk
      by_contra hless
      -- One row does not reach the end of a long string, nor do fewer rows than computed.
      rcases Nat.eq_zero_or_pos k with rfl | hpos
      · rw [Nat.zero_sub, Nat.zero_mul, Nat.zero_add] at hk
        exact hlong hk
      · have hreach := reach_lt (n := n) (r := k - 1) ho (by omega)
        omega

theorem NeedsRows.eq_rowsFor (h : o.NeedsRows n k) (ho : o.Strides) : k = o.rowsFor n := by
  have hcomputed := needsRows_rowsFor ho n
  unfold NeedsRows at h hcomputed
  by_cases hone : n ≤ o.sequenceLength ∨ o.truncate
  · rw [if_pos hone] at h hcomputed
    rw [h, hcomputed]
  · rw [if_neg hone] at h hcomputed
    exact h.unique hcomputed

end TokenizerOptions

namespace Tensor

variable {o : TokenizerOptions} {strings : List (List UInt32)} {tokens : List UInt32}
  {needed : List Nat} {i r j : Nat}

/-- Each string needs so many rows. -/
def NeedRows (o : TokenizerOptions) (strings : List (List UInt32)) (needed : List Nat) : Prop :=
  List.Forall₂ (fun tokens k => o.NeedsRows tokens.length k) strings needed

theorem map_length_rowsOf (o : TokenizerOptions) (strings : List (List UInt32)) :
    (rowsOf o strings).map List.length = strings.map fun tokens => o.rowsFor tokens.length := by
  refine List.ext_getElem? fun i => ?_
  rw [rowsOf, List.getElem?_map, List.getElem?_mapIdx, List.getElem?_map]
  cases strings[i]? with
  | none => rfl
  | some tokens => exact congrArg some (length_stringRows o i tokens)

/-- The rows that are computed for the strings are those that they need. -/
theorem needRows_rowsFor (ho : o.Strides) (strings : List (List UInt32)) :
    NeedRows o strings (strings.map fun tokens => o.rowsFor tokens.length) := by
  induction strings with
  | nil => exact .nil
  | cons tokens rest ih => exact .cons (o.needsRows_rowsFor ho tokens.length) ih

theorem NeedRows.eq_lengths (h : NeedRows o strings needed) (ho : o.Strides) :
    needed = (rowsOf o strings).map List.length := by
  rw [map_length_rowsOf]
  induction h with
  | nil => rfl
  | cons hk _ ih => rw [List.map_cons, ih, hk.eq_rowsFor ho]

theorem NeedRows.sum_eq (h : NeedRows o strings needed) (ho : o.Strides) :
    needed.sum = (rowsOf o strings).flatten.length := by
  rw [h.eq_lengths ho, List.length_flatten]

/-- The rows of a string start behind those that the strings before it need. -/
theorem NeedRows.sum_take_eq (h : NeedRows o strings needed) (ho : o.Strides) (i : Nat) :
    (needed.take i).sum = startOf (rowsOf o strings) i := by
  rw [h.eq_lengths ho, startOf]

theorem NeedRows.getElem?_eq (h : NeedRows o strings needed) (ho : o.Strides)
    (hi : strings[i]? = some tokens) : needed[i]? = some (o.rowsFor tokens.length) := by
  rw [h.eq_lengths ho, map_length_rowsOf, List.getElem?_map, hi]
  rfl

/-! ## Cells -/

theorem Row.getElem?_ids (o : TokenizerOptions) (row : Row) (hj : j < o.sequenceLength) :
    (row.cells o .ids)[j]? = some (row.tokens[row.index * o.stride + j]?.getD 0) := by
  have hlength := length_rowTokens o row.tokens row.index
  by_cases hwritten : j < (row.written o .ids).length
  · have htoken : (row.written o .ids)[j]? = row.tokens[row.index * o.stride + j]? := by
      show (rowTokens o row.tokens row.index)[j]? = _
      rw [rowTokens, List.getElem?_take_of_lt hj, List.getElem?_drop]
    change j < (rowTokens o row.tokens row.index).length at hwritten
    have hplace : row.index * o.stride + j < row.tokens.length := by omega
    rw [Row.getElem?_cells_written hwritten, htoken, List.getElem?_eq_getElem hplace]
    rfl
  · change ¬j < (rowTokens o row.tokens row.index).length at hwritten
    have hplace : row.tokens.length ≤ row.index * o.stride + j := by omega
    rw [Row.getElem?_cells_rest (Nat.le_of_not_lt hwritten) hj, List.getElem?_eq_none hplace]
    rfl

theorem Row.getElem?_mask (o : TokenizerOptions) (row : Row) (hj : j < o.sequenceLength) :
    (row.cells o .mask)[j]? =
      some (if row.index * o.stride + j < row.tokens.length then 1 else 0) := by
  have hlength := length_rowTokens o row.tokens row.index
  have hmask : (row.written o .mask).length = (rowTokens o row.tokens row.index).length :=
    List.length_map _
  by_cases hwritten : j < (row.written o .mask).length
  · have hone : (row.written o .mask)[j]? = some 1 := by
      show ((rowTokens o row.tokens row.index).map fun _ => (1 : UInt32))[j]? = _
      rw [List.getElem?_map, List.getElem?_eq_getElem (hmask ▸ hwritten)]
      rfl
    rw [Row.getElem?_cells_written hwritten, hone, if_pos (by omega)]
  · rw [Row.getElem?_cells_rest (Nat.le_of_not_lt hwritten) hj, if_neg (by omega)]

section Cells

variable (hi : strings[i]? = some tokens) (hr : r < o.rowsFor tokens.length)
include hi hr

theorem ids_ofStrings (hj : j < o.sequenceLength) :
    (ofStrings o strings).ids[(startOf (rowsOf o strings) i + r) * o.sequenceLength + j]? =
      some (tokens[r * o.stride + j]?.getD 0) :=
  List.getElem?_toArray.trans ((getElem?_contents (b := .ids)
    (getElem?_flatten_rowsOf hi hr) hj).trans
    (Row.getElem?_ids o ⟨i, tokens, r⟩ hj))

theorem mask_ofStrings (hj : j < o.sequenceLength) :
    (ofStrings o strings).mask[(startOf (rowsOf o strings) i + r) * o.sequenceLength + j]? =
      some (if r * o.stride + j < tokens.length then 1 else 0) :=
  List.getElem?_toArray.trans ((getElem?_contents (b := .mask)
    (getElem?_flatten_rowsOf hi hr) hj).trans
    (Row.getElem?_mask o ⟨i, tokens, r⟩ hj))

end Cells

/-! ## What a row shows -/

/-- The places of the tokens in row `row` as its mask tells them, if the row starts at the token in
place `first`. -/
def shown (t : Tensor) (row first : Nat) : Finset Nat :=
  ((Finset.range t.width).filter fun j => t.mask[row * t.width + j]? = some 1).image (first + ·)

theorem shown_ofStrings (hi : strings[i]? = some tokens) (hr : r < o.rowsFor tokens.length) :
    (ofStrings o strings).shown (startOf (rowsOf o strings) i + r) (r * o.stride) =
      Finset.Ico (r * o.stride) (min tokens.length (r * o.stride + o.sequenceLength)) := by
  have hwidth : (ofStrings o strings).width = o.sequenceLength := rfl
  have hcell : ∀ j < o.sequenceLength,
      (ofStrings o strings).mask[(startOf (rowsOf o strings) i + r) * o.sequenceLength + j]? =
        some 1 ↔ r * o.stride + j < tokens.length := by
    intro j hj
    rw [mask_ofStrings hi hr hj]
    by_cases hplace : r * o.stride + j < tokens.length <;> simp [hplace]
  ext p
  simp only [shown, hwidth, Finset.mem_image, Finset.mem_filter, Finset.mem_range, Finset.mem_Ico,
    Nat.lt_min]
  constructor
  · rintro ⟨j, ⟨hj, hone⟩, rfl⟩
    have hplace := (hcell j hj).mp hone
    omega
  · rintro ⟨hstart, hend, hwide⟩
    have hj : p - r * o.stride < o.sequenceLength := by omega
    exact ⟨p - r * o.stride, ⟨hj, (hcell _ hj).mpr (by omega)⟩, by omega⟩

section Shared

variable (ho : o.Strides) (hi : strings[i]? = some tokens) (hr : r + 1 < o.rowsFor tokens.length)
include ho hi hr

/-- A further row shows a token that the row before it does not. -/
theorem exists_shown_succ :
    ∃ p ∈ (ofStrings o strings).shown (startOf (rowsOf o strings) i + (r + 1)) ((r + 1) * o.stride),
      p ∉ (ofStrings o strings).shown (startOf (rowsOf o strings) i + r) (r * o.stride) := by
  have hreach := TokenizerOptions.reach_lt ho hr
  obtain ⟨hstride, hlength⟩ := ho
  rw [shown_ofStrings hi hr, shown_ofStrings hi (Nat.lt_of_succ_lt hr)]
  refine ⟨r * o.stride + o.sequenceLength, ?_, ?_⟩
  · rw [Finset.mem_Ico, Nat.succ_mul]
    omega
  · rw [Finset.mem_Ico]
    omega

/-- Two rows of a string that follow each other share the places that the stride leaves. -/
theorem card_shown_inter :
    ((ofStrings o strings).shown (startOf (rowsOf o strings) i + r) (r * o.stride) ∩
      (ofStrings o strings).shown (startOf (rowsOf o strings) i + (r + 1))
        ((r + 1) * o.stride)).card = o.sequenceLength - o.stride := by
  have hreach := TokenizerOptions.reach_lt ho hr
  rw [shown_ofStrings hi hr, shown_ofStrings hi (Nat.lt_of_succ_lt hr), Finset.Ico_inter_Ico,
    Nat.card_Ico, Nat.succ_mul]
  omega

end Shared

/-! ## The rows of the tensor -/

section Rows

variable {rows : List Row}

/-- A row that the tensor does not have has no tokens. -/
theorem rowIds?_beyond {k : Nat} (hwidth : 0 < o.sequenceLength)
    (hk : rows.length ≤ k) : (ofRows o rows).rowIds? k = none := by
  have hsize : (ofRows o rows).ids.size < k * o.sequenceLength + o.sequenceLength := by
    show (contents o rows .ids).length < _
    rw [length_contents, ← Nat.succ_mul]
    exact Nat.mul_lt_mul_of_pos_right (Nat.lt_succ_of_le hk) hwidth
  show (do
    let first ← Size.of? (k * o.sequenceLength)
    let last ← Size.of? (first + o.sequenceLength)
    slice? (ofRows o rows).ids first last) = none
  rcases Nat.lt_or_ge (k * o.sequenceLength) UInt64.size with hfirst | hfirst
  · rw [Size.of?_of_lt hfirst]
    rcases Nat.lt_or_ge (k * o.sequenceLength + o.sequenceLength) UInt64.size with hlast | hlast
    · simp [Size.of?_of_lt hlast, slice?, Nat.not_le_of_lt hsize]
    · simp [Size.of?_of_le hlast]
  · rw [Size.of?_of_le hfirst]
    rfl

/-- A tensor has the tokens of a row exactly if it lies among its rows. -/
theorem isSome_rowIds? (hcells : rows.length * o.sequenceLength ≤ Device.maxBytes) (ho : o.Strides)
    (row : Nat) : ((ofRows o rows).rowIds? row).isSome ↔ row < rows.length := by
  rcases Nat.lt_or_ge row rows.length with hrow | hrow
  · rw [rowIds?_ofRows hcells (List.getElem?_eq_getElem hrow)]
    exact iff_of_true rfl hrow
  · rw [rowIds?_beyond (Nat.le_trans ho.1 ho.2) hrow]
    exact iff_of_false Bool.false_ne_true (Nat.not_lt_of_le hrow)

/-- A tensor has the metadata of a row exactly if it lies among its rows, and asking for those of
the others finds none, or stops. -/
theorem rowMetadata?_iff (hrows : rows.length < UInt32.size) (row : Nat) :
    ((∃ metadata, (ofRows o rows).rowMetadata? row = .ok (some metadata)) ↔ row < rows.length) ∧
    ((ofRows o rows).rowMetadata? row = .ok none ↔ rows.length ≤ row ∧ row ≠ topRow) ∧
    ((ofRows o rows).rowMetadata? row = .error .additionOverflow ↔ row = topRow) := by
  have htop : UInt32.size ≤ topRow := by decide
  rcases Nat.lt_or_ge row rows.length with hrow | hrow
  · have hne : row ≠ topRow := by omega
    rw [rowMetadata?_ofRows hrows (List.getElem?_eq_getElem hrow)]
    simp [hrow, hne]
  · rw [rowMetadata?_beyond hrow]
    by_cases heq : row = topRow
    · simp [heq, Nat.le_trans (Nat.le_of_lt hrows) htop]
    · simp [heq, hrow]

end Rows

end Tensor
end GridOps
