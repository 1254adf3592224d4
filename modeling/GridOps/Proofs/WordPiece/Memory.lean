import GridOps.Proofs.WordPiece.Fill
import GridOps.Proofs.WordPiece.Tokenize

/-!
What tokenizing leaves on the device.

An operation that fails leaves nothing, wherever it fails, and one that succeeds leaves the bytes of
its result: each of the buffers that it needed on the way is given back.  Which bytes these are
follows from the sizes of the result's buffers, and no kernel changes the size of a buffer
(`Keeps`), whatever it writes and in whatever order its threads run.
-/

namespace GridOps

/-! ## What kernels keep -/

/-- If `P` holds before `m` and `m` succeeds, `P` holds after it. -/
def Keeps {σ : Type} (P : σ → Prop) (m : EStateM Fault σ Unit) : Prop :=
  ∀ s s', P s → m s = .ok () s' → P s'

namespace Keeps

variable {σ α : Type} {P : σ → Prop} {m m' : EStateM Fault σ Unit}

theorem pure : Keeps P (Pure.pure () : EStateM Fault σ Unit) := by
  intro s s' hs h
  cases h
  exact hs

theorem throw (fault : Fault) : Keeps P (MonadExcept.throw fault : EStateM Fault σ Unit) := by
  intro s s' _ h
  cases h

theorem andThen (h : Keeps P m) (h' : Keeps P m') : Keeps P (m >>= fun _ => m') := by
  intro s s' hs hrun
  change EStateM.bind m (fun _ => m') s = _ at hrun
  unfold EStateM.bind at hrun
  cases hm : m s with
  | ok u s₁ =>
    rw [hm] at hrun
    exact h' s₁ s' (h s s₁ hs hm) hrun
  | error fault s₁ =>
    rw [hm] at hrun
    cases hrun

theorem forM {f : α → EStateM Fault σ Unit} (l : List α) (h : ∀ a, Keeps P (f a)) :
    Keeps P (l.forM f) := by
  induction l with
  | nil => exact pure
  | cons a rest ih => exact (h a).andThen ih

theorem ite {c : Prop} [Decidable c] (h : Keeps P m) :
    Keeps P (if c then m else Pure.pure ()) := by
  by_cases hc : c
  · rw [if_pos hc]
    exact h
  · rw [if_neg hc]
    exact pure

theorem launch {name : String} {l : Launch} {kernel : Kernel σ} (h : ∀ th, Keeps P (kernel th))
    {s s' : σ} {d d' : Device} (hs : P s) (hrun : DeviceM.launch name l kernel s d = .ok s' d') :
    P s' :=
  Device.launch_keeps (fun th s s' => h th s s') hs hrun

end Keeps

section Buffers

variable {α : Type} {n : Nat}

theorem scatter_keeps (i : Nat) (x : α) : Keeps (fun a => a.size = n) (scatter i x) := by
  intro a a' ha h
  exact (scatter_size h).trans ha

theorem scatterFrom_keeps (xs : List α) (i : Nat) :
    Keeps (fun a => a.size = n) (scatterFrom xs i) := by
  induction xs generalizing i with
  | nil => exact .pure
  | cons x rest ih => exact (scatter_keeps i x).andThen (ih (i + 1))

end Buffers

namespace PrefixSum

variable {α : Type} [Word α] {p : PrefixSum} {counts offsets : Array α} {n : Nat} {d d' : Device}

theorem writeRunning_keeps (items : List α) (i : Nat) (sum : α) :
    Keeps (fun a => a.size = n) (writeRunning items i sum) := by
  induction items generalizing i sum with
  | nil => exact .pure
  | cons a rest ih =>
    refine (scatter_keeps i sum).andThen ?_
    cases Word.checkedAdd sum a with
    | none => exact .throw _
    | some sum => exact ih (i + 1) sum

/-- There is one more offset than counts. -/
theorem size_offsets (h : p.offsets counts d = .ok offsets d') :
    offsets.size = counts.size + 1 := by
  rw [offsets_eq] at h
  obtain ⟨_, d₁, -, h⟩ := DeviceM.bind_ok h
  have h := DeviceM.keepingBytes_ok h
  unfold scanned at h
  split at h
  · next hempty =>
    cases h
    rw [Array.isEmpty_iff.mp hempty]
    rfl
  · obtain ⟨⟨l, before, all⟩, d₂, -, h⟩ := DeviceM.bind_ok h
    obtain ⟨sums, d₃, hlaunch, h⟩ := DeviceM.bind_ok h
    cases h
    have hsize : sums.size = counts.size :=
      Keeps.launch (P := fun a => a.size = counts.size)
        (fun th => .ite (writeRunning_keeps _ _ _)) Array.size_replicate hlaunch
    rw [Array.size_push, hsize]

end PrefixSum

/-! ## Tokens -/

namespace Tokenizer

variable {t : Tokenizer} {b : Batch} {l : Launch} {d d' : Device} {offsets : Array UInt32}

theorem size_tokenOffsets (h : t.tokenOffsets b l d = .ok offsets d') :
    offsets.size = b.count + 1 := by
  obtain ⟨_, d₁, -, h⟩ := DeviceM.bind_ok h
  obtain ⟨d₂, h, -⟩ := DeviceM.withBytes_ok h
  obtain ⟨⟨overflows, counts⟩, d₃, hlaunch, h⟩ := DeviceM.bind_ok h
  have hsize : counts.size = b.count := Device.launch_keeps
    (P := fun s : UInt64 × Array UInt32 => s.2.size = b.count)
    (fun th s s' hs h => (countKernel_size h).trans hs) Array.size_replicate
    (DeviceM.mapError_ok hlaunch)
  dsimp only at h
  split at h
  · cases h
  · rw [PrefixSum.size_offsets (DeviceM.mapError_ok h), hsize]

/-- The last step of `tokenize`: the tokens are written behind the offsets. -/
def written (t : Tokenizer) (b : Batch) (l : Launch) (offsets : Array UInt32) :
    DeviceM TokenizerError TokenIds := do
  let total := (offsets[b.count]?.getD 0).toNat
  DeviceM.mapError .device (DeviceM.allocate total (Word.bytes UInt32))
  DeviceM.keepingBytes (total * Word.bytes UInt32) do
    let ids ← DeviceM.mapError .device
      (DeviceM.launch "write_token_ids" l (t.writeKernel b offsets) (Array.replicate total 0))
    return ⟨ids, offsets⟩

theorem written_ok {r : TokenIds} (h : t.written b l offsets d = .ok r d') :
    r.ids.size = (offsets[b.count]?.getD 0).toNat ∧ r.offsets = offsets := by
  obtain ⟨_, d₁, -, h⟩ := DeviceM.bind_ok h
  obtain ⟨ids, d₂, hlaunch, h⟩ := DeviceM.bind_ok (DeviceM.keepingBytes_ok h)
  cases h
  have hsize : ids.size = (offsets[b.count]?.getD 0).toNat :=
    Keeps.launch (P := fun a => a.size = (offsets[b.count]?.getD 0).toNat)
      (fun th => .ite (scatterFrom_keeps _ _)) Array.size_replicate (DeviceM.mapError_ok hlaunch)
  exact ⟨hsize, rfl⟩

theorem written_balanced (t : Tokenizer) (b : Batch) (l : Launch) (offsets : Array UInt32) :
    DeviceM.Balanced (t.written b l offsets) fun r => r.ids.size * Word.bytes UInt32 :=
  ((DeviceM.allocate_balanced _ _).mapError.keep fun _ =>
    (DeviceM.launch_balanced ..).mapError.map fun _ => rfl).congr_gain fun h => by
      rw [(written_ok h).1]

/-- The tokens and their offsets stay on the device. -/
theorem tokenize_balanced (t : Tokenizer) (b : Batch) :
    DeviceM.Balanced (t.tokenize b) TokenIds.bytes := by
  refine (DeviceM.Balanced.ofExcept _).bind fun _ => ?_
  by_cases hcount : b.count = 0
  · rw [if_pos hcount]
    exact (DeviceM.allocate_balanced _ _).mapError.map fun _ => rfl
  rw [if_neg hcount]
  refine (DeviceM.Balanced.ofExcept _).mapError.bind fun l =>
    (DeviceM.reserveItems_balanced _ _).mapError.hold fun _ => ?_
  have hoffsets : DeviceM.Balanced (t.tokenOffsets b l) fun offsets =>
      offsets.size * Word.bytes UInt32 :=
    (tokenOffsets_balanced t b l).congr_gain fun h => by rw [size_tokenOffsets h]
  refine hoffsets.keep_of (f := t.written b l) (written_balanced t b l) fun {offsets d r d'} h => ?_
  rw [TokenIds.bytes, (written_ok h).2, Nat.add_mul, Nat.add_comm]

/-- There is one more offset than strings. -/
theorem size_tokenize {r : TokenIds} (h : t.tokenize b d = .ok r d') :
    r.offsets.size = b.count + 1 := by
  obtain ⟨_, d₁, -, h⟩ := DeviceM.bind_ok h
  by_cases hcount : b.count = 0
  · rw [if_pos hcount] at h
    obtain ⟨_, d₂, -, h⟩ := DeviceM.bind_ok h
    cases h
    rw [hcount]
    rfl
  · rw [if_neg hcount] at h
    obtain ⟨l, d₂, -, h⟩ := DeviceM.bind_ok h
    obtain ⟨_, d₃, -, h⟩ := DeviceM.bind_ok h
    obtain ⟨d₄, h, -⟩ := DeviceM.withBytes_ok h
    obtain ⟨offsets, d₅, hoffsets, h⟩ := DeviceM.bind_ok h
    have hwritten : t.written b l offsets d₅ = .ok r d₄ := DeviceM.keepingBytes_ok h
    rw [(written_ok hwritten).2, size_tokenOffsets hoffsets]

end Tokenizer

/-! ## Tensors -/

namespace Tensor

variable {o : TokenizerOptions} {target r : Tensor} {t : TokenIds} {b : Buffer} {l : Launch}
  {offsets : Array UInt32} {d d' : Device}

theorem on_keeps {m : EStateM Fault (Array UInt32) Unit}
    (h : Keeps (fun a => a.size = (target.get b).size) m) : Keeps (Shaped target) (on b m) := by
  intro s s' hs hrun
  unfold on at hrun
  dsimp only at hrun
  cases hm : m (s.get b) with
  | error fault values =>
    rw [hm] at hrun
    cases hrun
  | ok u values =>
    rw [hm] at hrun
    cases hrun
    rw [set_set]
    refine ⟨(rows_set ..).trans hs.rows, (width_set ..).trans hs.width, fun b' => ?_⟩
    by_cases hb : b' = b
    · subst hb
      rw [get_set_self]
      exact h _ _ (hs.size b') hm
    · rw [get_set_ne hb, hs.size]

theorem fillRow_keeps (o : TokenizerOptions) (tokens : List UInt32) (i k row : Nat) :
    Keeps (Shaped target) (fillRow o tokens i k row) :=
  (on_keeps (scatterFrom_keeps _ _)).andThen
    ((on_keeps (scatterFrom_keeps _ _)).andThen (on_keeps (scatterFrom_keeps _ _)))

theorem fillKernel_keeps (o : TokenizerOptions) (t : TokenIds) (offsets : Array UInt32)
    (th : Thread) : Keeps (Shaped target) (fillKernel o t offsets th) :=
  .ite (.forM _ fun r => fillRow_keeps o _ th.global r _)

theorem blank_shaped_self (o : TokenizerOptions) (rows : Nat) :
    Shaped (blank o rows) (blank o rows) := ⟨rfl, rfl, fun _ => rfl⟩

/-- The bytes of a tensor of some rows: one buffer for tokens, one for the mask, and the
metadata. -/
def bytesFor (o : TokenizerOptions) (rows : Nat) : Nat :=
  (rows * o.sequenceLength + (rows * o.sequenceLength + rows * metadataColumns)) *
    Word.bytes UInt32

theorem bytes_of_shaped {rows : Nat} (h : Shaped (blank o rows) r) : r.bytes = bytesFor o rows := by
  have hids := h.size .ids
  have hmask := h.size .mask
  have hmetadata := h.size .metadata
  rw [get_blank, Array.size_replicate] at hids hmask hmetadata
  rw [bytesFor, ← Nat.add_assoc]
  exact congrArg (· * Word.bytes UInt32)
    (congrArg₂ (· + ·) (congrArg₂ (· + ·) hids hmask) hmetadata)

/-- The last step of `ofTokens`: the rows are written. -/
def filled (o : TokenizerOptions) (t : TokenIds) (l : Launch) (offsets : Array UInt32) :
    DeviceM TokenizerError Tensor := do
  let rows := (offsets[t.count]?.getD 0).toNat
  let cells := rows * o.sequenceLength
  if o.maxRows < rows then DeviceM.fail (.tooManyRows rows o.maxRows)
  else if Device.maxBytes < cells then DeviceM.fail .tensorSize
  else
    holding cells <| holding cells <| holding (rows * metadataColumns) <|
      DeviceM.mapError .device
        (DeviceM.launch "fill_tensor" l (fillKernel o t offsets) (blank o rows))

theorem holding_balanced {α : Type} {items n : Nat} {body : DeviceM TokenizerError α}
    (h : DeviceM.Balanced body fun _ => n * Word.bytes UInt32) :
    DeviceM.Balanced (holding items body) fun _ => (items + n) * Word.bytes UInt32 :=
  (DeviceM.allocate_balanced _ _).mapError.keep_of (fun _ => h) fun _ => Nat.add_mul ..

theorem filled_ok (h : filled o t l offsets d = .ok r d') :
    Shaped (blank o (offsets[t.count]?.getD 0).toNat) r := by
  unfold filled at h
  split at h
  · cases h
  · split at h
    · cases h
    · obtain ⟨d₁, -, h⟩ := holding_ok h
      obtain ⟨d₂, -, h⟩ := holding_ok h
      obtain ⟨d₃, -, h⟩ := holding_ok h
      exact Keeps.launch (fillKernel_keeps o t offsets) (blank_shaped_self o _)
        (DeviceM.mapError_ok h)

theorem filled_balanced (o : TokenizerOptions) (t : TokenIds) (l : Launch)
    (offsets : Array UInt32) :
    DeviceM.Balanced (filled o t l offsets) bytes := by
  have hbuffers : DeviceM.Balanced (filled o t l offsets) fun _ =>
      bytesFor o (offsets[t.count]?.getD 0).toNat := by
    unfold filled
    dsimp only
    split
    · exact .fail _
    · split
      · exact .fail _
      · have hlaunch := (DeviceM.launch_balanced "fill_tensor" l (fillKernel o t offsets)
          (blank o (offsets[t.count]?.getD 0).toNat)).mapError (f := TokenizerError.device)
        exact holding_balanced (holding_balanced (holding_balanced (n := 0) hlaunch))
  exact hbuffers.congr_gain fun h => (bytes_of_shaped (filled_ok h)).symm

theorem rowOffsets_balanced (o : TokenizerOptions) (t : TokenIds) (l : Launch) :
    DeviceM.Balanced (rowOffsets o t l) fun offsets => offsets.size * Word.bytes UInt32 := by
  refine (DeviceM.allocate_balanced _ _).hold fun _ => (DeviceM.launch_balanced ..).bind
    fun counts => ?_
  exact (PrefixSum.offsets_balanced _ counts).congr_gain fun h => by rw [PrefixSum.size_offsets h]

/-- The three buffers of the tensor stay on the device. -/
theorem ofTokens_balanced (o : TokenizerOptions) (t : TokenIds) :
    DeviceM.Balanced (ofTokens o t) bytes :=
  (DeviceM.Balanced.ofExcept _).mapError.bind fun l =>
    (rowOffsets_balanced o t l).mapError.hold_of fun offsets => filled_balanced o t l offsets

theorem ofTokens_shaped (h : ofTokens o t d = .ok r d') : Shaped (blank o r.rows) r := by
  obtain ⟨l, d₁, -, h⟩ := DeviceM.bind_ok h
  obtain ⟨offsets, d₂, -, h⟩ := DeviceM.bind_ok h
  obtain ⟨d₃, h, -⟩ := DeviceM.withBytes_ok h
  have hshaped : Shaped (blank o (offsets[t.count]?.getD 0).toNat) r := filled_ok h
  rw [hshaped.rows]
  exact hshaped

end Tensor

namespace Tokenizer

variable {t : Tokenizer} {b : Batch} {d d' : Device}

/-- The tensor stays on the device, and the tokens that it is made of do not. -/
theorem tensor_balanced (t : Tokenizer) (b : Batch) :
    DeviceM.Balanced (t.tensor b) Tensor.bytes :=
  (tokenize_balanced t b).hold_of fun tokens => Tensor.ofTokens_balanced _ tokens

theorem bytes_tensor {r : Tensor} (h : t.tensor b d = .ok r d') :
    r.bytes = Tensor.bytesFor t.toTokenizerOptions r.rows := by
  obtain ⟨tokens, d₁, -, h⟩ := DeviceM.bind_ok h
  obtain ⟨d₂, h, -⟩ := DeviceM.withBytes_ok h
  exact Tensor.bytes_of_shaped (Tensor.ofTokens_shaped h)

end Tokenizer

end GridOps
