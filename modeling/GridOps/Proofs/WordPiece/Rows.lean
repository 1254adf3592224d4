import GridOps.Proofs.Device.Tiles
import GridOps.WordPiece.Tensor

/-!
The rows of a string.

The rows of a string start `stride` tokens after each other and overlap.  What a row has beyond the
row before it, its own tokens, follows in the string on what the rows before have: the first `r + 1`
rows have the first `sequenceLength + r * stride` tokens (`flatMap_own`).  The number of rows is
such that they have all of them, and that each has some of its own.
-/

namespace GridOps
namespace TokenizerOptions

variable {o : TokenizerOptions} {n r : Nat}

/-- Rows advance, by no more than a row is wide. -/
def Strides (o : TokenizerOptions) : Prop := 1 ≤ o.stride ∧ o.stride ≤ o.sequenceLength

theorem rowsFor_pos (o : TokenizerOptions) (n : Nat) : 0 < o.rowsFor n := by
  unfold rowsFor
  split
  · exact Nat.one_pos
  · exact Nat.lt_of_lt_of_le Nat.one_pos (Nat.le_add_right 1 _)

/-- All rows together reach the end of the string, unless it is cut. -/
theorem le_reach (ho : o.Strides) (htruncate : o.truncate = false) (n : Nat) :
    n ≤ o.sequenceLength + (o.rowsFor n - 1) * o.stride := by
  unfold rowsFor
  rw [htruncate]
  split
  · rename_i h
    simp only [Bool.false_eq_true, or_false] at h
    omega
  · have hdiv := Nat.div_add_mod (n - o.sequenceLength + o.stride - 1) o.stride
    have hmod := Nat.mod_lt (n - o.sequenceLength + o.stride - 1) ho.1
    rw [Nat.mul_comm] at hdiv
    rw [Nat.add_sub_cancel_left]
    omega

/-- The rows before the last do not reach the end. -/
theorem reach_lt (ho : o.Strides) (hr : r + 1 < o.rowsFor n) :
    o.sequenceLength + r * o.stride < n := by
  unfold rowsFor at hr
  split at hr
  · omega
  · rename_i h
    have hn : o.sequenceLength < n := by
      simp only [not_or] at h
      omega
    have hlt : r < (n - o.sequenceLength + o.stride - 1) / o.stride := by omega
    have hmul := (Nat.le_div_iff_mul_le ho.1).mp hlt
    rw [Nat.succ_mul] at hmul
    omega

theorem rowsFor_le (ho : o.Strides) (n : Nat) : o.rowsFor n ≤ max n 1 := by
  rcases Nat.lt_or_ge 1 (o.rowsFor n) with h | h
  · have hlast := reach_lt (n := n) (r := o.rowsFor n - 2) ho (by omega)
    have hmul := Nat.le_mul_of_pos_right (o.rowsFor n - 2) ho.1
    obtain ⟨hstride, hlength⟩ := ho
    omega
  · omega

/-- A string that is cut, or fits into a row, has one row. -/
theorem rowsFor_truncate (htruncate : o.truncate = true) (n : Nat) : o.rowsFor n = 1 := by
  rw [rowsFor, htruncate, if_pos (Or.inr rfl)]

/-- The tokens of a string that stay if strings are cut. -/
def kept (o : TokenizerOptions) (tokens : List UInt32) : List UInt32 :=
  if o.truncate then tokens.take o.sequenceLength else tokens

end TokenizerOptions

namespace Tensor

variable {o : TokenizerOptions} {tokens : List UInt32} {r : Nat}

theorem length_rowTokens (o : TokenizerOptions) (tokens : List UInt32) (r : Nat) :
    (rowTokens o tokens r).length = min o.sequenceLength (tokens.length - r * o.stride) := by
  rw [rowTokens, List.length_take, List.length_drop]

/-- Where the tokens of row `r` start that the row before does not have. -/
def ownStart (o : TokenizerOptions) (r : Nat) : Nat :=
  if r = 0 then 0 else o.sequenceLength - o.stride

/-- The tokens of row `r` that the row before does not have. -/
def own (o : TokenizerOptions) (tokens : List UInt32) (r : Nat) : List UInt32 :=
  (rowTokens o tokens r).drop (ownStart o r)

/-- Every row of a string with tokens has some of its own. -/
theorem ownStart_lt (ho : o.Strides) (hne : tokens ≠ []) (hr : r < o.rowsFor tokens.length) :
    ownStart o r < (rowTokens o tokens r).length := by
  have hpos := List.length_pos_iff.mpr hne
  have hstrides := ho
  obtain ⟨hstride, hlength⟩ := ho
  rw [length_rowTokens, ownStart]
  cases r with
  | zero =>
    rw [if_pos rfl]
    omega
  | succ r =>
    have hreach := TokenizerOptions.reach_lt hstrides hr
    rw [if_neg (Nat.succ_ne_zero r), Nat.succ_mul]
    omega

/-- The first rows have so many of the tokens. -/
theorem flatMap_own (ho : o.Strides) (tokens : List UInt32) (r : Nat) :
    (List.range (r + 1)).flatMap (own o tokens) =
      tokens.take (o.sequenceLength + r * o.stride) := by
  induction r with
  | zero => simp [own, ownStart, rowTokens]
  | succ r ih =>
    -- The next row's own tokens start where the rows so far end.
    have hstart : (r + 1) * o.stride + (o.sequenceLength - o.stride) =
        o.sequenceLength + r * o.stride := by
      obtain ⟨-, hlength⟩ := ho
      rw [Nat.succ_mul]
      omega
    have hown : own o tokens (r + 1) =
        (tokens.drop (o.sequenceLength + r * o.stride)).take o.stride := by
      rw [own, ownStart, if_neg (Nat.succ_ne_zero r), rowTokens, List.drop_take, List.drop_drop,
        hstart, Nat.sub_sub_self ho.2]
    rw [List.range_succ, List.flatMap_append, ih, List.flatMap_singleton, hown, ← List.take_add,
      Nat.succ_mul, Nat.add_assoc]

/-- The tokens that the rows of a string have of their own are its tokens, each once and in order,
or as many of the first of them as fit into a row if it is cut. -/
theorem flatMap_own_rowsFor (ho : o.Strides) (tokens : List UInt32) :
    (List.range (o.rowsFor tokens.length)).flatMap (own o tokens) = o.kept tokens := by
  unfold TokenizerOptions.kept
  obtain ⟨k, hk⟩ := Nat.exists_eq_succ_of_ne_zero (Nat.ne_of_gt (o.rowsFor_pos tokens.length))
  rw [hk, flatMap_own ho]
  cases htruncate : o.truncate with
  | true =>
    rw [TokenizerOptions.rowsFor_truncate htruncate] at hk
    obtain rfl : k = 0 := by omega
    simp
  | false =>
    have hreach := TokenizerOptions.le_reach ho htruncate tokens.length
    rw [hk, Nat.succ_sub_one] at hreach
    exact List.take_of_length_le hreach

/-! ## Rows of many strings -/

/-- A row: the number and the tokens of its string, and its number among the rows of the string. -/
structure Row where
  string : Nat
  tokens : List UInt32
  index : Nat

/-- The rows of string `i`. -/
def stringRows (o : TokenizerOptions) (i : Nat) (tokens : List UInt32) : List Row :=
  (List.range (o.rowsFor tokens.length)).map (Row.mk i tokens)

/-- The rows of each string. -/
def rowsOf (o : TokenizerOptions) (strings : List (List UInt32)) : List (List Row) :=
  strings.mapIdx (stringRows o)

@[simp] theorem length_rowsOf (o : TokenizerOptions) (strings : List (List UInt32)) :
    (rowsOf o strings).length = strings.length := List.length_mapIdx

theorem getElem?_rowsOf {strings : List (List UInt32)} {i : Nat} (h : strings[i]? = some tokens) :
    (rowsOf o strings)[i]? = some (stringRows o i tokens) := by
  rw [rowsOf, List.getElem?_mapIdx, h]
  rfl

@[simp] theorem length_stringRows (o : TokenizerOptions) (i : Nat) (tokens : List UInt32) :
    (stringRows o i tokens).length = o.rowsFor tokens.length := by simp [stringRows]

theorem getElem?_stringRows {i : Nat} (h : r < o.rowsFor tokens.length) :
    (stringRows o i tokens)[r]? = some ⟨i, tokens, r⟩ := by simp [stringRows, h]

/-- The rows of a string stand one after the other. -/
theorem getElem?_flatten_rowsOf {strings : List (List UInt32)} {i : Nat}
    (h : strings[i]? = some tokens) (hr : r < o.rowsFor tokens.length) :
    (rowsOf o strings).flatten[startOf (rowsOf o strings) i + r]? = some ⟨i, tokens, r⟩ := by
  rw [getElem?_flatten_startOf (getElem?_rowsOf h) (by rwa [length_stringRows]),
    getElem?_stringRows hr]

theorem exists_of_mem_rowsOf {strings : List (List UInt32)} {i : Nat} {rows : List Row}
    (h : (rowsOf o strings)[i]? = some rows) :
    ∃ tokens, strings[i]? = some tokens ∧ rows = stringRows o i tokens := by
  rw [rowsOf, List.getElem?_mapIdx, Option.map_eq_some_iff] at h
  obtain ⟨tokens, htokens, rfl⟩ := h
  exact ⟨tokens, htokens, rfl⟩

/-- Every row is one of a string. -/
theorem exists_string {strings : List (List UInt32)} {k : Nat}
    (hk : k < (rowsOf o strings).flatten.length) :
    ∃ i tokens r, strings[i]? = some tokens ∧ r < o.rowsFor tokens.length ∧
      k = startOf (rowsOf o strings) i + r := by
  obtain ⟨i, rows, hrows, hstart, hend⟩ := exists_startOf_le hk
  obtain ⟨tokens, htokens, rfl⟩ := exists_of_mem_rowsOf hrows
  rw [length_stringRows] at hend
  exact ⟨i, tokens, k - startOf (rowsOf o strings) i, htokens, by omega, by omega⟩

/-! ## Contents of the buffers -/

/-- The places of a row in a buffer. -/
def columns (o : TokenizerOptions) : Buffer → Nat
  | .ids | .mask => o.sequenceLength
  | .metadata => metadataColumns

/-- What is written to the places of a row. -/
def Row.written (o : TokenizerOptions) (row : Row) : Buffer → List UInt32
  | .ids => rowTokens o row.tokens row.index
  | .mask => (rowTokens o row.tokens row.index).map fun _ => 1
  | .metadata => rowMetadata o row.tokens row.string row.index

/-- What the places of a row hold: zero where nothing is written. -/
def Row.cells (o : TokenizerOptions) (row : Row) (b : Buffer) : List UInt32 :=
  row.written o b ++ List.replicate (columns o b - (row.written o b).length) 0

theorem Row.length_written_le (o : TokenizerOptions) (row : Row) (b : Buffer) :
    (row.written o b).length ≤ columns o b := by
  cases b with
  | ids => exact List.length_take_le ..
  | mask =>
    rw [written, List.length_map]
    exact List.length_take_le ..
  | metadata => exact Nat.le_refl _

@[simp] theorem Row.length_cells (o : TokenizerOptions) (row : Row) (b : Buffer) :
    (row.cells o b).length = columns o b := by
  have hle := row.length_written_le o b
  rw [cells, List.length_append, List.length_replicate]
  omega

theorem Row.getElem?_cells_written {row : Row} {b : Buffer} {j : Nat}
    (h : j < (row.written o b).length) : (row.cells o b)[j]? = (row.written o b)[j]? :=
  List.getElem?_append_left h

theorem Row.getElem?_cells_rest {row : Row} {b : Buffer} {j : Nat}
    (h : (row.written o b).length ≤ j) (hj : j < columns o b) : (row.cells o b)[j]? = some 0 := by
  rw [cells, List.getElem?_append_right h, List.getElem?_replicate_of_lt (by omega)]

/-- The contents of a buffer. -/
def contents (o : TokenizerOptions) (rows : List Row) (b : Buffer) : List UInt32 :=
  rows.flatMap fun row => row.cells o b

section Contents

variable {rows : List Row} {b : Buffer} {row : Row} {k : Nat}

theorem startOf_cells (o : TokenizerOptions) (b : Buffer) (hk : k ≤ rows.length) :
    startOf (rows.map fun row => row.cells o b) k = k * columns o b := by
  refine startOf_uniform (fun cells hcells => ?_) (by rwa [List.length_map])
  obtain ⟨row, -, rfl⟩ := List.mem_map.mp hcells
  exact row.length_cells o b

@[simp] theorem length_contents (o : TokenizerOptions) (rows : List Row) (b : Buffer) :
    (contents o rows b).length = rows.length * columns o b := by
  rw [← startOf_cells o b (Nat.le_refl _), ← List.length_map (f := fun row : Row => row.cells o b),
    startOf_length]
  rfl

theorem getElem?_contents (h : rows[k]? = some row) {j : Nat} (hj : j < columns o b) :
    (contents o rows b)[k * columns o b + j]? = (row.cells o b)[j]? := by
  obtain ⟨hk, -⟩ := List.getElem?_eq_some_iff.mp h
  rw [← startOf_cells o b (Nat.le_of_lt hk)]
  refine getElem?_flatten_startOf ?_ (by rwa [Row.length_cells])
  rw [List.getElem?_map, h]
  rfl

/-- The cells of a row are found again. -/
theorem extract_contents (h : rows[k]? = some row) :
    ((contents o rows b).take ((k + 1) * columns o b)).drop (k * columns o b) = row.cells o b := by
  obtain ⟨hk, -⟩ := List.getElem?_eq_some_iff.mp h
  rw [← startOf_cells o b (Nat.le_of_lt hk), ← startOf_cells o b hk]
  refine extract_flatten ?_
  rw [List.getElem?_map, h]
  rfl

end Contents

/-- The tensor with these rows. -/
def ofRows (o : TokenizerOptions) (rows : List Row) : Tensor :=
  ⟨rows.length, o.sequenceLength, (contents o rows .ids).toArray, (contents o rows .mask).toArray,
    (contents o rows .metadata).toArray⟩

@[simp] theorem get_ofRows (o : TokenizerOptions) (rows : List Row) (b : Buffer) :
    (ofRows o rows).get b = (contents o rows b).toArray := by cases b <;> rfl

/-- The tensor of `strings`: the rows of each, one string after the other. -/
def ofStrings (o : TokenizerOptions) (strings : List (List UInt32)) : Tensor :=
  ofRows o (rowsOf o strings).flatten

end Tensor
end GridOps
