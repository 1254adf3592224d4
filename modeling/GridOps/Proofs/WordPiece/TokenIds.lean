import GridOps.Proofs.Device.Tiles
import GridOps.WordPiece.Tensor

/-!
The tokens of strings, laid end to end.
-/

namespace GridOps

theorem Tensor.span_starts {α : Type} {lists : List (List α)}
    (h : lists.flatten.length < UInt32.size) {i : Nat} (hi : i < lists.length) :
    span (starts UInt32 lists).toArray i = (startOf lists i, startOf lists (i + 1)) := by
  rw [span, toNat_getElem?_starts h (Nat.le_of_lt hi), toNat_getElem?_starts h hi]

namespace TokenIds

variable {strings : List (List UInt32)}

/-- The tokens of `strings` with the place where each string starts. -/
def ofStrings (strings : List (List UInt32)) : TokenIds :=
  ⟨strings.flatten.toArray, (starts UInt32 strings).toArray⟩

@[simp] theorem count_ofStrings (strings : List (List UInt32)) :
    (ofStrings strings).count = strings.length := by
  simp [ofStrings, count]

/-- Starts fit into 32 bits if all tokens do. -/
theorem getElem?_offsets (h : strings.flatten.length < UInt32.size) {i : Nat}
    (hi : i ≤ strings.length) :
    ∃ first, (ofStrings strings).offsets[i]? = some first ∧ first.toNat = startOf strings i := by
  have hread := toNat_getElem?_starts h hi
  rw [List.getElem?_toArray, getElem?_starts hi] at hread
  exact ⟨_, List.getElem?_toArray.trans (getElem?_starts hi), hread⟩

theorem span_ofStrings (h : strings.flatten.length < UInt32.size) {i : Nat}
    (hi : i < strings.length) :
    Tensor.span (ofStrings strings).offsets i = (startOf strings i, startOf strings (i + 1)) :=
  Tensor.span_starts h hi

theorem extract_ofStrings {i : Nat} {tokens : List UInt32} (hi : strings[i]? = some tokens) :
    ((ofStrings strings).ids.extract (startOf strings i) (startOf strings (i + 1))).toList =
      tokens := by
  rw [ofStrings, Array.toList_extract, List.extract_eq_drop_take', extract_flatten hi]

/-- The tokens of a string are found again, and there are no others. -/
theorem string?_ofStrings (h : strings.flatten.length < UInt32.size) (i : Nat) :
    (ofStrings strings).string? i = strings[i]? := by
  rcases Nat.lt_or_ge i strings.length with hi | hi
  · obtain ⟨first, hfirst, hstart⟩ := getElem?_offsets h (Nat.le_of_lt hi)
    obtain ⟨last, hlast, hend⟩ := getElem?_offsets h hi
    have htokens : strings[i]? = some strings[i] := List.getElem?_eq_getElem hi
    have hle : startOf strings i ≤ startOf strings (i + 1) ∧
        startOf strings (i + 1) ≤ (ofStrings strings).ids.size :=
      ⟨startOf_mono strings (Nat.le_succ i), by simpa [ofStrings] using startOf_le strings hi⟩
    rw [string?, hfirst, hlast]
    show (if first.toNat ≤ last.toNat ∧ last.toNat ≤ (ofStrings strings).ids.size then
      some ((ofStrings strings).ids.extract first.toNat last.toNat).toList else none) = _
    rw [hstart, hend, if_pos hle, extract_ofStrings htokens, htokens]
  · have hnone : (ofStrings strings).offsets[i + 1]? = none := by
      rw [ofStrings, List.getElem?_toArray, List.getElem?_eq_none]
      rw [length_starts]
      omega
    rw [List.getElem?_eq_none hi, string?, hnone]
    cases (ofStrings strings).offsets[i]? <;> rfl

end TokenIds
end GridOps
