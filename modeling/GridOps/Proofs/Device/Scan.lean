import GridOps.Proofs.Device.PrefixSum

/-!
What a scan returns, and what it leaves in its output.

For a chunk length below `2 ^ 64` minus the number of items, a scan returns the sum of its input and
writes the sums of the prefixes, or it fails with the output as it was because the type lacks the
sum: nothing of this depends on the chunks, on the blocks or on the order of the threads.  From that
length on the chunks are not counted, and the scan stops, whatever its input is (`scan_outcome`).
-/

namespace GridOps

/-- A launch that returns has run without a fault. -/
theorem Device.run_of_launch {σ : Type} {d d' : Device} {name : String} {l : Launch}
    {kernel : Kernel σ} {s s' : σ} (h : DeviceM.launch name l kernel s d = .ok s' d') :
    d.run name l kernel s = (⟨s', none⟩, d') := by
  unfold DeviceM.launch at h
  cases hrun : d.run name l kernel s with
  | mk result after =>
    rw [hrun] at h
    obtain ⟨memory, error?⟩ := result
    cases error? with
    | none =>
      cases h
      rfl
    | some e => cases h

namespace PrefixSum

variable {α : Type} [Word α] {p : PrefixSum} {input output : Array α} {d : Device}

/-! ## The phases in turn -/

/-- With memory for them, the chunks are summed while the counter and their sums are taken. -/
theorem aggregate_eq (hp : p.Suits input.size) (hinput : input.size < UInt32.size)
    (hblock : p.block ≠ 0) (hword : Word.bytes α ≤ 8) (hd : d.RunsAll)
    (hmemory : DeviceM.counterBytes + p.chunks input.size * Word.bytes α ≤ d.available) :
    ∃ l held, l.Covers (p.chunks input.size) ∧ held.RunsAll ∧ p.aggregate input d =
      DeviceM.withBytes DeviceM.counterBytes
        (DeviceM.withBytes (p.chunks input.size * Word.bytes α) (p.sumChunks input l)) held := by
  have hsize : UInt32.size = 4294967296 := rfl
  have hchunks := chunks_le hp
  have hbytes : p.chunks input.size * Word.bytes α ≤ input.size * 8 := Nat.mul_le_mul hchunks hword
  have hroom : d.used + (DeviceM.counterBytes + p.chunks input.size * Word.bytes α) ≤
      d.capacity := by
    have hcounter : 0 < DeviceM.counterBytes := by decide
    unfold Device.available at hmemory
    omega
  have hcounter : DeviceM.reserveItems 1 DeviceM.counterBytes d =
      .ok () (d.take DeviceM.counterBytes) :=
    DeviceM.reserveItems_isOk (by decide) (by omega)
  have hsums : DeviceM.allocate (p.chunks input.size) (Word.bytes α) (d.take DeviceM.counterBytes) =
      .ok () ((d.take DeviceM.counterBytes).take (p.chunks input.size * Word.bytes α)) := by
    refine DeviceM.allocate_isOk ?_ ?_
    · unfold maxHostBytes
      omega
    · show d.used + DeviceM.counterBytes + _ ≤ d.capacity
      omega
  have hblocks : (UInt32.size - 1) * 1 ≤ (UInt32.size - 1) * p.block.toNat :=
    Nat.mul_le_mul_left _ (Launch.toNat_pos hblock)
  have hgrid : p.chunks input.size ≤ (UInt32.size - 1) * p.block.toNat := by omega
  obtain ⟨l, hl, hcovers⟩ := Launch.exists_forLen_covers hblock hgrid
  refine ⟨l, (d.take DeviceM.counterBytes).take (p.chunks input.size * Word.bytes α), hcovers, hd,
    ?_⟩
  rw [aggregate_of_suits hp]
  unfold DeviceM.withCounter
  rw [DeviceM.bind_of_ok (DeviceM.ofExcept_of_ok hl d), DeviceM.bind_of_ok hcounter]
  exact DeviceM.withBytes_congr (DeviceM.bind_of_ok hsums)

theorem scan_of_error {e : DeviceError} {d' : Device} (hsize : output.size = input.size)
    (hinput : input.isEmpty = false) (h : p.aggregate input d = .error e d') :
    p.scan input output d = (.error e, output, d') := by
  unfold scan
  rw [if_neg (not_not.mpr hsize.symm), if_neg (by simp [hinput]), h]

theorem scan_of_ok {l : Launch} {before written : Array α} {all : α} {d₁ d₂ : Device}
    (hsize : output.size = input.size) (hinput : input.isEmpty = false)
    (h : p.aggregate input d = .ok (l, before, all) d₁)
    (hlaunch : DeviceM.launch "chunk_exclusive_scan" l
      (p.scanKernel input (p.chunks input.size) before) output d₁ = .ok written d₂) :
    p.scan input output d = (.ok all, written, d₂) := by
  unfold scan
  rw [if_neg (not_not.mpr hsize.symm), if_neg (by simp [hinput]), h]
  dsimp only
  rw [Device.run_of_launch hlaunch]

/-- Near the top of the range of chunk lengths the chunks are not counted, and nothing is
written. -/
theorem scan_of_stops (hsize : output.size = input.size)
    (hp : UInt64.size ≤ input.size + p.chunk.toNat) :
    p.scan input output d = (.error (.stopped .additionOverflow), output, d) := by
  have hchunk := p.chunk.toNat_lt
  have hword : UInt64.size = 2 ^ 64 := rfl
  have hitems : input.size ≠ 0 := by omega
  refine scan_of_error hsize (by simpa using hitems) ?_
  unfold aggregate
  rw [Size.countParts_of_le hp]
  rfl

/-! ## The scan of a whole input -/

/-- The result of a scan of `input` is its sum and `written` are the sums of its prefixes, if the
type has the sum.  If not, the scan failed and `written` is the output as it was. -/
def IsScan (input output : Array α) (result : Except DeviceError α) (written : Array α) : Prop :=
  if total input.toList < Word.size α then
    ∃ sum, result = .ok sum ∧ Word.toNat sum = total input.toList ∧
      written.toList.map Word.toNat =
        (List.range input.size).map fun i => total (input.toList.take i)
  else result = .error .sumOverflow ∧ written = output

theorem toNat_sums {items : List α} (h : total items < Word.size α) (count : Nat) :
    (sums items count).map Word.toNat =
      (List.range count).map fun i => total (items.take i) := by
  rw [sums, List.map_map]
  refine List.map_congr_left fun i _ => ?_
  show Word.toNat (Word.ofNat (total (items.take i)) : α) = _
  exact Word.toNat_ofNat_of_lt (Nat.lt_of_le_of_lt (total_take_le items i) h)

namespace IsScan

theorem of_lt (h : total input.toList < Word.size α) :
    IsScan input output (.ok (Word.ofNat (total input.toList)))
      (sums input.toList input.size).toArray := by
  rw [IsScan, if_pos h]
  exact ⟨_, rfl, Word.toNat_ofNat_of_lt h, toNat_sums h input.size⟩

theorem of_le (h : Word.size α ≤ total input.toList) :
    IsScan input output (.error .sumOverflow) output := by
  rw [IsScan, if_neg (Nat.not_lt_of_le h)]
  exact ⟨rfl, rfl⟩

/-- The input and the output determine what a scan returns and writes. -/
theorem unique {result result' : Except DeviceError α} {written written' : Array α}
    (h : IsScan input output result written) (h' : IsScan input output result' written') :
    result' = result ∧ written' = written := by
  have hinj : ∀ {a b : α}, Word.toNat a = Word.toNat b → a = b := Word.toNat_injective
  unfold IsScan at h h'
  by_cases hsum : total input.toList < Word.size α
  · rw [if_pos hsum] at h h'
    obtain ⟨sum, hresult, hvalue, hwritten⟩ := h
    obtain ⟨sum', hresult', hvalue', hwritten'⟩ := h'
    have hsame : sum' = sum := hinj (hvalue'.trans hvalue.symm)
    have hlists := (List.map_inj_right fun _ _ => hinj).mp (hwritten'.trans hwritten.symm)
    exact ⟨by rw [hresult', hresult, hsame], Array.toList_inj.mp hlists⟩
  · rw [if_neg hsum] at h h'
    exact ⟨h'.1.trans h.1.symm, h'.2.trans h.2.symm⟩

end IsScan

section Outcome

variable (hinput : input.size < UInt32.size) (houtput : output.size = input.size)
  (hword : Word.bytes α ≤ 8) (hblock : p.block ≠ 0) (hd : d.RunsAll)
  (hmemory : p.scanBytes (Word.bytes α) input.size ≤ d.available)

include hinput houtput hword hblock hd hmemory

/-- A chunk length with which the chunks are counted. -/
theorem scan_isScan (hp : p.Suits input.size) :
    IsScan input output (p.scan input output d).1 (p.scan input output d).2.1 := by
  by_cases hempty : input.size = 0
  · obtain rfl : input = #[] := Array.eq_empty_of_size_eq_zero hempty
    obtain rfl : output = #[] := Array.eq_empty_of_size_eq_zero houtput
    exact IsScan.of_lt (Word.size_pos α)
  · have hnonempty : input.isEmpty = false := by simpa using hempty
    rw [scanBytes, if_neg hempty] at hmemory
    obtain ⟨l, held, hl, hheld, haggregate⟩ :=
      aggregate_eq hp hinput hblock hword hd hmemory
    by_cases hsum : total input.toList < Word.size α
    · have haggregate := haggregate.trans (DeviceM.withBytes_of_ok (DeviceM.withBytes_of_ok
        (sumChunks_isOk hp hl hheld.runsGrid hsum)))
      have hafter := hd.runsGrid.became ((aggregate_balanced p input).ok haggregate)
      rw [scan_of_ok houtput hnonempty haggregate (launch_scan hp hl hafter hsum houtput)]
      exact IsScan.of_lt hsum
    · cases hsums : p.sumChunks input l held with
      | ok r after => exact absurd (total_lt_of_sumChunks hp hl hheld hsums) hsum
      | error e after =>
        rw [sumChunks_error hl hsums] at hsums
        rw [scan_of_error houtput hnonempty (haggregate.trans (DeviceM.withBytes_of_error
          (DeviceM.withBytes_of_error hsums)))]
        exact IsScan.of_le (Nat.le_of_not_lt hsum)

end Outcome

/-- With free memory for its counter and the sums of its chunks, a scan of fewer than `2 ^ 32` items
returns and writes what the input and the output determine, whatever the blocks and the chunks are.
The exception are chunk lengths that are no size together with the number of items: with these it
stops, and writes nothing. -/
theorem scan_outcome {block : UInt32} {chunk : UInt64} (hbuild : build block chunk = .ok p)
    (hblock : block ≠ 0) (hword : Word.bytes α ≤ 8) (hinput : input.size < UInt32.size)
    (houtput : output.size = input.size) (hd : d.RunsAll)
    (hmemory : p.scanBytes (Word.bytes α) input.size ≤ d.available) :
    (input.size + chunk.toNat < UInt64.size →
      IsScan input output (p.scan input output d).1 (p.scan input output d).2.1 ∧
      ∀ result written, IsScan input output result written →
        result = (p.scan input output d).1 ∧ written = (p.scan input output d).2.1) ∧
    (UInt64.size ≤ input.size + chunk.toNat →
      p.scan input output d = (.error (.stopped .additionOverflow), output, d)) := by
  unfold build at hbuild
  split at hbuild
  · cases hbuild
  · rename_i hchunk
    cases hbuild
    refine ⟨fun hrounding => ?_, fun hstops => scan_of_stops houtput hstops⟩
    have hsuits : (⟨block, chunk⟩ : PrefixSum).Suits input.size := {
      chunk := Nat.pos_of_ne_zero fun h => hchunk (UInt64.toNat.inj h)
      rounding := hrounding
      grid := by
        have hsize : UInt32.size = 4294967296 := rfl
        have hword64 : UInt64.size = 18446744073709551616 := rfl
        omega }
    have hscan := scan_isScan hinput houtput hword hblock hd hmemory hsuits
    exact ⟨hscan, fun _ _ h => hscan.unique h⟩

/-- Three items on a device that runs its threads backwards: in chunks of two, in one chunk of the
greatest length with which chunks are counted, and with a chunk length one greater. -/
theorem scan_outcome_sample :
    ((⟨2, 2⟩ : PrefixSum).scan (#[200, 50, 5] : Array UInt8) #[0, 0, 0]
      (Device.backwards 10)).1 = .ok 255 ∧
    ((⟨2, 2⟩ : PrefixSum).scan (#[200, 50, 5] : Array UInt8) #[0, 0, 0]
      (Device.backwards 10)).2.1 = #[0, 200, 250] ∧
    ((⟨2, 18446744073709551612⟩ : PrefixSum).scan (#[200, 50, 5] : Array UInt8) #[0, 0, 0]
      (Device.backwards 10)).1 = .ok 255 ∧
    ((⟨2, 18446744073709551613⟩ : PrefixSum).scan (#[200, 50, 5] : Array UInt8) #[0, 0, 0]
      (Device.backwards 10)).1 = .error (.stopped .additionOverflow) := by
  have hscan : IsScan (#[200, 50, 5] : Array UInt8) #[0, 0, 0] (.ok 255) #[0, 200, 250] := by
    rw [IsScan, if_pos (by decide)]
    exact ⟨255, rfl, rfl, rfl⟩
  have houtcome := fun (chunk : UInt64) (hchunk : build 2 chunk = .ok ⟨2, chunk⟩) =>
    @scan_outcome UInt8 _ ⟨2, chunk⟩ #[200, 50, 5] #[0, 0, 0] (Device.backwards 10) 2 chunk hchunk
      (by decide) (by decide) (by decide) rfl (Device.backwards_runsAll 10)
  obtain ⟨hresult, hwritten⟩ := ((houtcome 2 rfl (by decide)).1 (by decide)).2 _ _ hscan
  obtain ⟨hlong, -⟩ := ((houtcome 18446744073709551612 rfl (by decide)).1 (by decide)).2 _ _ hscan
  have hstops := (houtcome 18446744073709551613 rfl (by decide)).2 (by decide)
  exact ⟨hresult.symm, hwritten.symm, hlong.symm, congrArg Prod.fst hstops⟩

/-- The longest chunk length stops the scan of two items, though their sum is three. -/
theorem scan_of_top_chunk :
    build 128 18446744073709551615 = .ok ⟨128, 18446744073709551615⟩ ∧
    (⟨128, 18446744073709551615⟩ : PrefixSum).scan (#[1, 2] : Array UInt32) #[0, 0]
      (Device.forwards 1048576) =
      (.error (.stopped .additionOverflow), #[0, 0], Device.forwards 1048576) ∧
    IsScan (#[1, 2] : Array UInt32) #[0, 0] (.ok 3) #[0, 1] ∧
    ¬IsScan (#[1, 2] : Array UInt32) #[0, 0] (.error (.stopped .additionOverflow)) #[0, 0] := by
  refine ⟨rfl, rfl, ?_, fun h => ?_⟩
  · rw [IsScan, if_pos (by decide)]
    exact ⟨3, rfl, rfl, rfl⟩
  · rw [IsScan, if_pos (by decide)] at h
    obtain ⟨sum, hresult, -⟩ := h
    cases hresult

end PrefixSum
end GridOps
