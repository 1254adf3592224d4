import GridOps.Proofs.WordPiece.Layout
import GridOps.Proofs.WordPiece.Memory
import GridOps.Proofs.WordPiece.Outcome

/-!
When a tensor is built.

With enough memory there is a tensor exactly if the strings of a batch need no more rows than are
allowed, and it has the rows that they need (`ofTokens_outcome`).  The row count of a string is one
of its tokens at most, so 32 bits hold it; more rows than 32 bits count are found when the counts
are summed up.
-/

namespace GridOps
namespace Tensor

variable {o : TokenizerOptions} {strings : List (List UInt32)} {l : Launch} {d d' : Device}

/-! ## The course of building a tensor -/

/-- The plan of `rowOffsets`. -/
def rowOffsetsPlan (o : TokenizerOptions) (strings : List (List UInt32)) : Plan (Array UInt32) := do
  Plan.allocate strings.length (Word.bytes UInt32)
  Plan.hold (strings.length * Word.bytes UInt32) do
    PrefixSum.default.offsetsPlan (Word.bytes UInt32) strings.length
    return (starts UInt32 (rowsOf o strings)).toArray

/-- The plan of an operation that holds `items` words. -/
def holdingPlan {α : Type} (items : Nat) (plan : Plan α) : Plan α := do
  Plan.allocate items (Word.bytes UInt32)
  Plan.hold (items * Word.bytes UInt32) plan

/-- The plan of `filled`. -/
def filledPlan (o : TokenizerOptions) (strings : List (List UInt32)) : Plan Tensor :=
  let rows := (rowsOf o strings).flatten.length
  let cells := rows * o.sequenceLength
  if o.maxRows < rows then Plan.fail .invalidArgument
  else if Device.maxBytes < cells then Plan.fail .integerOverflow
  else holdingPlan cells (holdingPlan cells (holdingPlan (rows * metadataColumns)
    (pure (ofStrings o strings))))

def ofTokensPlan (o : TokenizerOptions) (strings : List (List UInt32)) : Plan Tensor := do
  Plan.launch strings.length o.block
  let _ ← rowOffsetsPlan o strings
  Plan.hold ((strings.length + 1) * Word.bytes UInt32) (filledPlan o strings)

theorem rowOffsets_follows (htokens : strings.flatten.length < UInt32.size)
    (hrows : (rowsOf o strings).flatten.length < UInt32.size) (hl : l.Covers strings.length)
    (hd : d.RunsGrid) :
    DeviceM.Follows DeviceError.kind id (rowOffsets o (.ofStrings strings) l)
      (rowOffsetsPlan o strings) d := by
  unfold rowOffsets rowOffsetsPlan
  rw [TokenIds.count_ofStrings]
  refine (DeviceM.allocate_follows _ _ d).take (DeviceM.allocate_balanced _ _)
    fun _ d₁ _ hb₁ => .withBytes _ ?_
  have hd₁ := hd.became hb₁
  refine .ok_bind (launch_count htokens hl hd₁) (.launched d₁ _) ?_
  have hd₂ : ({ d₁ with launches := d₁.launches + 1 } : Device).RunsGrid :=
    hd₁.became (.launched d₁ _)
  have hcount := Nat.lt_of_le_of_lt (length_le_rows o strings) hrows
  have hsuits : PrefixSum.default.Suits (rowsOf o strings).length := by
    rw [length_rowsOf]
    exact PrefixSum.default_suits (Nat.le_trans (Nat.le_of_lt hcount) (by decide))
  have hoffsets := PrefixSum.offsets_lengths_follows (β := UInt32) (rowsOf o strings) hsuits
    (by decide) hd₂ hrows
  rwa [length_rowsOf] at hoffsets

theorem holding_follows {α β : Type} {view : α → β} {items : Nat} {body : DeviceM TokenizerError α}
    {plan : Plan β} (h : ∀ d', d.Became d' (items * Word.bytes UInt32) →
      DeviceM.Follows TokenizerError.kind view body plan d') :
    DeviceM.Follows TokenizerError.kind view (holding items body) (holdingPlan items plan) d :=
  (Tokenizer.follows_device (DeviceM.allocate_follows items (Word.bytes UInt32) d)).take
    (DeviceM.allocate_balanced _ _).mapError fun _ d' _ hb => .keepingBytes _ (h d' hb)

theorem filled_follows (htokens : strings.flatten.length < UInt32.size)
    (hrows : (rowsOf o strings).flatten.length < UInt32.size) (hl : l.Covers strings.length)
    (hd : d.RunsGrid) :
    DeviceM.Follows TokenizerError.kind id
      (filled o (.ofStrings strings) l (starts UInt32 (rowsOf o strings)).toArray)
      (filledPlan o strings) d := by
  have htotal : ((starts UInt32 (rowsOf o strings)).toArray[strings.length]?.getD 0).toNat =
      (rowsOf o strings).flatten.length := by
    rw [← startOf_length, length_rowsOf]
    exact toNat_getElem?_starts hrows (Nat.le_of_eq (length_rowsOf o strings).symm)
  unfold filled filledPlan
  rw [TokenIds.count_ofStrings, htotal]
  dsimp only
  split
  · exact .fail _ _
  · split
    · exact .fail _ _
    · refine holding_follows fun d₁ hb₁ => holding_follows fun d₂ hb₂ =>
        holding_follows fun d₃ hb₃ => ?_
      have hd₃ := ((hd.became hb₁).became hb₂).became hb₃
      exact .of_ok (DeviceM.mapError_of_ok (launch_fill htokens hrows hl hd₃))

/-- A batch whose rows 32 bits count ends as planned. -/
theorem ofTokens_follows (hblock : o.block ≠ 0) (htokens : strings.flatten.length < UInt32.size)
    (hrows : (rowsOf o strings).flatten.length < UInt32.size) (hd : d.RunsGrid) :
    DeviceM.Follows TokenizerError.kind id (ofTokens o (.ofStrings strings))
      (ofTokensPlan o strings)
      d := by
  have hcount := Nat.lt_of_le_of_lt (length_le_rows o strings) hrows
  have hsize : UInt32.size = 4294967296 := rfl
  have hsize64 : UInt64.size = 18446744073709551616 := rfl
  have hlen : strings.length + UInt32.size ≤ UInt64.size := by omega
  unfold ofTokens ofTokensPlan
  rw [TokenIds.count_ofStrings]
  refine (Tokenizer.follows_device (DeviceM.forLen_follows hblock hlen d)).bind
    (DeviceM.Balanced.ofExcept _).mapError fun l d₁ hl hb₁ => ?_
  have hl := Launch.forLen_ofNat_covers hlen (DeviceM.ofExcept_ok (DeviceM.mapError_ok hl))
  have hd₁ := hd.became hb₁
  have hoffsets := Tokenizer.follows_device (rowOffsets_follows htokens hrows hl hd₁)
  refine hoffsets.bind_of fun offsets d₂ h => ?_
  have hplan := hoffsets.symm.trans (DeviceM.ending_of_ok h)
  obtain ⟨_, -, hplan⟩ := Plan.bind_ok hplan
  obtain ⟨_, -, hplan⟩ := Plan.bind_ok hplan
  obtain rfl : (starts UInt32 (rowsOf o strings)).toArray = offsets := Except.ok.inj hplan
  have hb₂ := ((rowOffsets_balanced o (.ofStrings strings) l).mapError
    (f := TokenizerError.device)).ok h
  have hbytes : (starts UInt32 (rowsOf o strings)).toArray.size = strings.length + 1 := by simp
  rw [hbytes] at hb₂ ⊢
  rw [Plan.ends_hold, ← hb₂.available]
  have hfilled := filled_follows htokens hrows hl (hd₁.became hb₂)
  rw [filled, TokenIds.count_ofStrings] at hfilled
  exact hfilled.withBytes _

/-! ## Memory -/

/-- The most bytes that are taken at a time while a tensor is built: first for the offsets of the
rows, then for these and the tensor. -/
def peakBytes (o : TokenizerOptions) (strings rows : Nat) : Nat :=
  let word := Word.bytes UInt32
  let offsets := (strings + 1) * word
  max (strings * word + (offsets + PrefixSum.default.scanBytes word strings))
    (offsets + bytesFor o rows)

theorem holdingPlan_needs {α : Type} {items bytes : Nat} {plan : Plan α} {a : α}
    (hhost : items * Word.bytes UInt32 ≤ maxHostBytes) (h : plan.Needs bytes a) :
    (holdingPlan items plan).Needs (items * Word.bytes UInt32 + bytes) a :=
  (Plan.allocate_needs hhost).hold h

/-- Each of the tensor's buffers fits in the host's memory: one for tokens takes less than half of
the bytes that a word counts. -/
theorem bounds_of_bytesFor {rows : Nat} (hrows : rows < UInt32.size)
    (hbytes : bytesFor o rows ≤ Device.maxBytes) :
    rows * o.sequenceLength ≤ Device.maxBytes ∧
      rows * o.sequenceLength * Word.bytes UInt32 ≤ maxHostBytes ∧
      rows * metadataColumns * Word.bytes UInt32 ≤ maxHostBytes := by
  have hword : Word.bytes UInt32 = 4 := rfl
  have hcolumns : metadataColumns = 3 := rfl
  have hmax : Device.maxBytes = 18446744073709551615 := rfl
  have hhost : maxHostBytes = 9223372036854775807 := rfl
  have hsize : UInt32.size = 4294967296 := rfl
  unfold bytesFor at hbytes
  rw [hword, hcolumns] at hbytes ⊢
  generalize rows * o.sequenceLength = cells at hbytes ⊢
  omega

theorem filledPlan_needs (hrows : (rowsOf o strings).flatten.length ≤ o.maxRows)
    (hcount : (rowsOf o strings).flatten.length < UInt32.size)
    (hbytes : bytesFor o (rowsOf o strings).flatten.length ≤ Device.maxBytes) :
    (filledPlan o strings).Needs (bytesFor o (rowsOf o strings).flatten.length)
      (ofStrings o strings) := by
  obtain ⟨hcells, hids, hmetadata⟩ := bounds_of_bytesFor hcount hbytes
  unfold filledPlan
  dsimp only
  rw [if_neg (Nat.not_lt_of_le hrows), if_neg (Nat.not_lt_of_le hcells)]
  refine .of_eq (holdingPlan_needs hids (holdingPlan_needs hids
    (holdingPlan_needs hmetadata (.pure _)))) ?_
  unfold bytesFor
  rw [Nat.add_zero, Nat.add_mul, Nat.add_mul]

theorem ofTokensPlan_needs (hblock : o.block ≠ 0)
    (hrows : (rowsOf o strings).flatten.length ≤ o.maxRows)
    (hcount : (rowsOf o strings).flatten.length < UInt32.size)
    (hbytes : bytesFor o (rowsOf o strings).flatten.length ≤ Device.maxBytes) :
    (ofTokensPlan o strings).Needs (peakBytes o strings.length (rowsOf o strings).flatten.length)
      (ofStrings o strings) := by
  have hstrings := Nat.lt_of_le_of_lt (length_le_rows o strings) hcount
  have hgrid : strings.length ≤ (UInt32.size - 1) * o.block.toNat :=
    Nat.le_trans (by omega) (Nat.le_mul_of_pos_right _ (Launch.toNat_pos hblock))
  have hoffsets := Tokenizer.offsetsOfCounts_needs hstrings
    (starts UInt32 (rowsOf o strings)).toArray
  have hkept : (strings.length + 1) * Word.bytes UInt32 ≤ strings.length * Word.bytes UInt32 +
      ((strings.length + 1) * Word.bytes UInt32 +
        PrefixSum.default.scanBytes (Word.bytes UInt32) strings.length) := by omega
  exact .of_eq ((Plan.launch_needs hgrid).bind
    (hoffsets.keep hkept (filledPlan_needs hrows hcount hbytes))) (Nat.zero_max _)

/-! ## The outcome -/

theorem ofTokens_isOk (hblock : o.block ≠ 0) (htokens : strings.flatten.length < UInt32.size)
    (hrows : (rowsOf o strings).flatten.length ≤ o.maxRows)
    (hcount : (rowsOf o strings).flatten.length < UInt32.size) (hd : d.RunsGrid)
    (hcapacity : d.capacity ≤ Device.maxBytes)
    (hmemory : peakBytes o strings.length (rowsOf o strings).flatten.length ≤ d.available) :
    ∃ d', ofTokens o (.ofStrings strings) d = .ok (ofStrings o strings) d' := by
  have hpeak : bytesFor o (rowsOf o strings).flatten.length ≤
      peakBytes o strings.length (rowsOf o strings).flatten.length :=
    Nat.le_trans (Nat.le_add_left _ _) (Nat.le_max_right _ _)
  have hbytes : bytesFor o (rowsOf o strings).flatten.length ≤ Device.maxBytes := by
    unfold Device.available at hmemory
    omega
  have hends := (ofTokens_follows hblock htokens hcount hd).trans
    ((ofTokensPlan_needs hblock hrows hcount hbytes).ok hmemory)
  obtain ⟨t, d', h, rfl⟩ := DeviceM.ending_ok hends
  exact ⟨d', h⟩

/-- There is no tensor of more rows than are allowed. -/
theorem rows_le_of_ofTokens {t : Tensor} (ho : o.Strides) (hblock : o.block ≠ 0)
    (htokens : strings.flatten.length < UInt32.size) (hd : d.RunsAll)
    (h : ofTokens o (.ofStrings strings) d = .ok t d') :
    (rowsOf o strings).flatten.length ≤ o.maxRows := by
  obtain ⟨hcount, -⟩ := ofTokens_ok ho htokens hd h
  have hplan := (ofTokens_follows hblock htokens hcount hd.runsGrid).symm.trans
    (DeviceM.ending_of_ok h)
  obtain ⟨_, -, hplan⟩ := Plan.bind_ok hplan
  obtain ⟨_, -, hplan⟩ := Plan.bind_ok hplan
  rw [Plan.ends_hold] at hplan
  unfold filledPlan at hplan
  dsimp only at hplan
  split at hplan
  · cases hplan
  · rename_i hrows
    exact Nat.le_of_not_lt hrows

/-- How building a tensor ends.  If the strings need no more rows than are allowed, 32 bits count
them and memory suffices, there is a tensor of as many rows.  Row `r` of a string has the tokens
from place `r * stride` on where its mask is one, and zeros elsewhere; each further row shows a
token that the row before does not, and shares `sequenceLength - stride` places with it.  The rows
of the tensor can be read, and no others: there are no tokens and no metadata of these, but for one
of them asking for the metadata stops.  If the strings need more rows than are allowed, building
fails and leaves no memory in use. -/
theorem ofTokens_outcome {needed : List Nat} (ho : o.Strides) (hblock : o.block ≠ 0)
    (htokens : strings.flatten.length < UInt32.size) (hneeded : NeedRows o strings needed)
    (hd : d.RunsAll) (hcapacity : d.capacity ≤ Device.maxBytes) :
    (needed.sum ≤ o.maxRows → needed.sum < UInt32.size →
      peakBytes o strings.length needed.sum ≤ d.available →
      ∃ t d', ofTokens o (.ofStrings strings) d = .ok t d' ∧ t.rows = needed.sum ∧
        (∀ i tokens k, strings[i]? = some tokens → needed[i]? = some k → ∀ r < k,
          (∀ j < o.sequenceLength,
            t.ids[((needed.take i).sum + r) * o.sequenceLength + j]? =
              some (tokens[r * o.stride + j]?.getD 0) ∧
            t.mask[((needed.take i).sum + r) * o.sequenceLength + j]? =
              some (if r * o.stride + j < tokens.length then 1 else 0)) ∧
          (r + 1 < k →
            (∃ p ∈ t.shown ((needed.take i).sum + (r + 1)) ((r + 1) * o.stride),
              p ∉ t.shown ((needed.take i).sum + r) (r * o.stride)) ∧
            (t.shown ((needed.take i).sum + r) (r * o.stride) ∩
              t.shown ((needed.take i).sum + (r + 1)) ((r + 1) * o.stride)).card =
              o.sequenceLength - o.stride)) ∧
        ∀ row, ((t.rowIds? row).isSome ↔ row < t.rows) ∧
          ((∃ metadata, t.rowMetadata? row = .ok (some metadata)) ↔ row < t.rows) ∧
          (t.rowMetadata? row = .ok none ↔ t.rows ≤ row ∧ row ≠ topRow) ∧
          (t.rowMetadata? row = .error .additionOverflow ↔ row = topRow)) ∧
    (o.maxRows < needed.sum →
      ∃ e d', ofTokens o (.ofStrings strings) d = .error e d' ∧ d'.used = d.used) := by
  rw [hneeded.sum_eq ho]
  refine ⟨fun hrows hcount hmemory => ?_, fun hrows => ?_⟩
  · obtain ⟨d', h⟩ := ofTokens_isOk hblock htokens hrows hcount hd.runsGrid hcapacity hmemory
    obtain ⟨-, hcells, -⟩ := ofTokens_ok ho htokens hd h
    refine ⟨ofStrings o strings, d', h, rfl, fun i tokens k hi hk r hr => ?_, fun row =>
      ⟨isSome_rowIds? hcells ho row, rowMetadata?_iff hcount row⟩⟩
    rw [hneeded.getElem?_eq ho hi] at hk
    cases hk
    rw [hneeded.sum_take_eq ho]
    refine ⟨fun j hj => ⟨ids_ofStrings hi hr hj, mask_ofStrings hi hr hj⟩, fun hnext => ?_⟩
    exact ⟨exists_shown_succ ho hi hnext, card_shown_inter ho hi hnext⟩
  · cases h : ofTokens o (.ofStrings strings) d with
    | ok t d' =>
      exact absurd (rows_le_of_ofTokens ho hblock htokens hd h) (Nat.not_le_of_lt hrows)
    | error e d' => exact ⟨e, d', rfl, ((ofTokens_balanced o _).error h).used⟩

/-- Rows of three tokens that share one: a string of five tokens needs two.  One row less is not
enough for three strings. -/
theorem ofTokens_outcome_sample :
    (∃ t d, ofTokens sampleLayout (.ofStrings [[1, 2, 3, 4, 5], [], [6]]) (.backwards 1000) =
        .ok t d ∧ t.rows = 4 ∧ t.ids[5]? = some 5 ∧ (t.shown 0 0 ∩ t.shown 1 2).card = 1 ∧
        ¬(t.rowIds? 4).isSome) ∧
      ∃ e d, ofTokens { sampleLayout with maxRows := 3 } (.ofStrings [[1, 2, 3, 4, 5], [], [6]])
        (.backwards 1000) = .error e d ∧ d.used = 0 := by
  have ho : sampleLayout.Strides := ⟨by decide, by decide⟩
  have hblock : sampleLayout.block ≠ 0 := by decide
  have hneeded : NeedRows sampleLayout [[1, 2, 3, 4, 5], [], [6]] [2, 1, 1] :=
    needRows_rowsFor ho [[1, 2, 3, 4, 5], [], [6]]
  have houtcome := fun maxRows => ofTokens_outcome (o := { sampleLayout with maxRows := maxRows })
    ho hblock (by decide) hneeded (Device.backwards_runsAll 1000) (by decide)
  constructor
  · obtain ⟨t, d, h, hrows, hstrings, hread⟩ :=
      (houtcome sampleLayout.maxRows).1 (by decide) (by decide) (by decide)
    obtain ⟨-, hnext⟩ := hstrings 0 [1, 2, 3, 4, 5] 2 rfl rfl 0 (by decide)
    obtain ⟨hcells, -⟩ := hstrings 0 [1, 2, 3, 4, 5] 2 rfl rfl 1 (by decide)
    refine ⟨t, d, h, hrows, (hcells 2 (by decide)).1, (hnext (by decide)).2, fun hfour => ?_⟩
    have hlt := (hread 4).1.mp hfour
    rw [hrows] at hlt
    exact absurd hlt (by decide)
  · exact (houtcome 3).2 (by decide)

/-- A tensor of four rows has no tokens of the row whose metadata would start at the top of the
sizes, but asking for its metadata stops. -/
theorem rowMetadata?_of_top_row :
    ∃ t d, ofTokens sampleLayout (.ofStrings [[1, 2, 3, 4, 5], [], [6]]) (.backwards 1000) =
        .ok t d ∧ t.rows = 4 ∧ t.rowIds? 6148914691236517205 = none ∧
      t.rowMetadata? 6148914691236517205 = .error .additionOverflow := by
  obtain ⟨t, d, h, hrow⟩ := DeviceM.exists_of_returns
    (fun t => t.rows = 4 ∧ t.rowIds? 6148914691236517205 = none ∧
      t.rowMetadata? 6148914691236517205 = .error .additionOverflow)
    (ofTokens sampleLayout (.ofStrings [[1, 2, 3, 4, 5], [], [6]]) (.backwards 1000))
    (by decide +kernel)
  exact ⟨t, d, h, of_decide_eq_true hrow⟩

end Tensor
end GridOps
