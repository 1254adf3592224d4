import GridOps.Proofs.Device.Session
import GridOps.Proofs.WordPiece.Memory
import GridOps.WordPiece.Session

/-!
The memory of a session of calls of one tokenizer.

Between the calls the device holds what it held when the session started and the results that are
kept (`Accounted`): a call that fails leaves the device's account as it was, one that succeeds adds
the bytes of its result, and a drop takes just these off again.
-/

namespace GridOps
namespace TokenizerOptions

/-- A tokenizer holds its vocabulary on the device; one that is not made holds nothing. -/
theorem build_balanced (o : TokenizerOptions) (v : Vocabulary) :
    DeviceM.Balanced (o.build v) fun _ => v.words * Word.bytes UInt64 :=
  (DeviceM.Balanced.ofExcept _).bind fun _ =>
    (DeviceM.reserveItems_balanced _ _).mapError.map fun _ => rfl

end TokenizerOptions

namespace TokenizerSession

variable {t : Tokenizer}

/-! ## Single calls -/

theorem Call.execute_balanced (t : Tokenizer) (c : Call) :
    DeviceM.Balanced (c.execute t) Held.bytes := by
  cases c with
  | tokenize b => exact (t.tokenize_balanced b).map fun _ => rfl
  | subword b => exact (t.tensor_balanced b).map fun _ => rfl

theorem Call.execute_tokenize {b : Batch} {held : Held} {d d' : Device}
    (h : (tokenize b).execute t d = .ok held d') :
    ∃ r, held = .tokens r ∧ held.bytes = 4 * (r.ids.size + b.count + 1) := by
  obtain ⟨r, d₁, hr, h⟩ := DeviceM.bind_ok h
  cases h
  refine ⟨r, rfl, ?_⟩
  rw [Held.bytes, TokenIds.bytes, Tokenizer.size_tokenize hr]
  exact Nat.mul_comm (r.ids.size + (b.count + 1)) 4

theorem Call.execute_subword {b : Batch} {held : Held} {d d' : Device}
    (h : (subword b).execute t d = .ok held d') :
    ∃ r, held = .tensor r ∧ held.bytes = 4 * (2 * r.rows * t.sequenceLength + 3 * r.rows) := by
  obtain ⟨r, d₁, hr, h⟩ := DeviceM.bind_ok h
  cases h
  refine ⟨r, rfl, ?_⟩
  have hword : Word.bytes UInt32 = 4 := rfl
  have hcolumns : Tensor.metadataColumns = 3 := rfl
  rw [Held.bytes, Tokenizer.bytes_tensor hr, Tensor.bytesFor, hword, hcolumns, Nat.mul_assoc 2]
  omega

namespace State

variable {s s' : State} {c : Call} {held : Held} {id : Nat}

theorem call_ok (h : s.call t c = (.ok held, s')) :
    c.execute t s.device = .ok held s'.device ∧ s'.results = s.results ++ [some held] := by
  unfold call at h
  cases hexecute : c.execute t s.device with
  | ok r device =>
    rw [hexecute] at h
    cases h
    exact ⟨rfl, rfl⟩
  | error e device =>
    rw [hexecute] at h
    cases h

theorem call_error {e : TokenizerError} (h : s.call t c = (.error e, s')) :
    c.execute t s.device = .error e s'.device ∧ s'.results = s.results := by
  unfold call at h
  cases hexecute : c.execute t s.device with
  | ok r device =>
    rw [hexecute] at h
    cases h
  | error e device =>
    rw [hexecute] at h
    cases h
    exact ⟨rfl, rfl⟩

theorem liveBytes_eq (s : State) :
    s.liveBytes = (s.results.map fun held? => (held?.map Held.bytes).getD 0).sum :=
  (Session.State.foldl_bytes _ s.results 0).trans (Nat.zero_add _)

theorem liveBytes_append (h : s'.results = s.results ++ [some held]) :
    s'.liveBytes = s.liveBytes + held.bytes := by
  rw [liveBytes, h, List.foldl_append]
  rfl

theorem drop_of_held (hid : s.held? id = some held) :
    (s.drop id).device = s.device.release held.bytes ∧
      (s.drop id).liveBytes + held.bytes = s.liveBytes := by
  have hplace : (s.results.map fun held? => (held?.map Held.bytes).getD 0)[id]? =
      some held.bytes := by
    rw [List.getElem?_map, Option.join_eq_some_iff.mp hid]
    rfl
  have hsum := Session.State.sum_set 0 hplace
  rw [Nat.add_zero] at hsum
  unfold drop
  rw [hid]
  refine ⟨rfl, ?_⟩
  rw [liveBytes_eq, liveBytes_eq, List.map_set]
  exact hsum

theorem drop_of_not_held (hid : s.held? id = none) : s.drop id = s := by
  unfold drop
  rw [hid]

/-! ## The invariant -/

/-- Beyond the `base` bytes from before the session, the device holds the results that are kept. -/
def Accounted (base : Nat) (s : State) : Prop := s.device.used = base + s.liveBytes

namespace Accounted

variable {base : Nat}

theorem start (d : Device) : (State.start d).Accounted d.used := rfl

theorem call (h : s.Accounted base) (c : Call) : (s.call t c).2.Accounted base := by
  obtain ⟨answer, s', hcall⟩ : ∃ answer s', s.call t c = (answer, s') := ⟨_, _, rfl⟩
  rw [hcall]
  cases answer with
  | ok held =>
    obtain ⟨hexecute, hresults⟩ := call_ok hcall
    show s'.device.used = base + s'.liveBytes
    rw [((c.execute_balanced t).ok hexecute).used, liveBytes_append hresults, h, Nat.add_assoc]
  | error e =>
    obtain ⟨hexecute, hresults⟩ := call_error hcall
    show s'.device.used = base + s'.liveBytes
    rw [((c.execute_balanced t).error hexecute).used, liveBytes, hresults]
    exact h

/-- A drop gives back the bytes of its result. -/
theorem used_drop (h : s.Accounted base) (hid : s.held? id = some held) :
    (s.drop id).device.used + held.bytes = s.device.used := by
  obtain ⟨hdevice, hlive⟩ := drop_of_held hid
  rw [hdevice]
  show s.device.used - held.bytes + held.bytes = s.device.used
  rw [h]
  omega

theorem drop (h : s.Accounted base) (id : Nat) : (s.drop id).Accounted base := by
  cases hid : s.held? id with
  | none =>
    rw [drop_of_not_held hid]
    exact h
  | some held =>
    have hused := h.used_drop hid
    obtain ⟨-, hlive⟩ := drop_of_held hid
    show (s.drop id).device.used = base + (s.drop id).liveBytes
    rw [h] at hused
    omega

theorem step (h : s.Accounted base) (command : Command) : (s.step t command).Accounted base := by
  cases command with
  | call c => exact h.call c
  | drop id => exact h.drop id

theorem run (h : s.Accounted base) (commands : List Command) :
    (s.run t commands).Accounted base := by
  induction commands generalizing s with
  | nil => exact h
  | cons command rest ih => exact ih (h.step command)

end Accounted

/-- A tokenizer takes eight bytes for each word of its vocabulary, or none if it is not made.  In
every session of its calls, whatever is asked for and dropped in whatever order: a call that fails
leaves the memory used as it was, one that succeeds adds four bytes for each word of its result, and
dropping a result gives back its bytes. -/
theorem run_keeps_ledger (o : TokenizerOptions) (v : Vocabulary) (d : Device) :
    (∀ e d', o.build v d = .error e d' → d'.used = d.used) ∧
    ∀ t d', o.build v d = .ok t d' →
      d'.used = d.used + 8 * (v.table.size + v.bins.size + v.bins.size) ∧
      ∀ commands s, (start d').run t commands = s →
        s.device.used = d'.used + s.liveBytes ∧
        (∀ c e s', s.call t c = (.error e, s') →
          s'.device.used = s.device.used ∧ s'.results = s.results) ∧
        (∀ b held s', s.call t (.tokenize b) = (.ok held, s') →
          s'.device.used = s.device.used + held.bytes ∧ s'.results = s.results ++ [some held] ∧
          ∃ r, held = .tokens r ∧ held.bytes = 4 * (r.ids.size + b.count + 1)) ∧
        (∀ b held s', s.call t (.subword b) = (.ok held, s') →
          s'.device.used = s.device.used + held.bytes ∧ s'.results = s.results ++ [some held] ∧
          ∃ r, held = .tensor r ∧
            held.bytes = 4 * (2 * r.rows * t.sequenceLength + 3 * r.rows)) ∧
        ∀ id held, s.held? id = some held →
          (s.drop id).device.used + held.bytes = s.device.used := by
  have hbuild := o.build_balanced v
  refine ⟨fun e d' h => (hbuild.error h).used, fun t d' h => ⟨?_, fun commands s hs => ?_⟩⟩
  · have hword : Word.bytes UInt64 = 8 := rfl
    rw [(hbuild.ok h).used, Vocabulary.words, hword]
    omega
  have haccounted := (Accounted.start d').run (t := t) commands
  rw [hs] at haccounted
  refine ⟨haccounted, fun c e s' hcall => ?_, fun b held s' hcall => ?_, fun b held s' hcall => ?_,
    fun id held hid => haccounted.used_drop hid⟩
  · obtain ⟨hexecute, hresults⟩ := call_error hcall
    exact ⟨((Call.execute_balanced t c).error hexecute).used, hresults⟩
  · obtain ⟨hexecute, hresults⟩ := call_ok hcall
    exact ⟨((Call.execute_balanced t _).ok hexecute).used, hresults, Call.execute_tokenize hexecute⟩
  · obtain ⟨hexecute, hresults⟩ := call_ok hcall
    exact ⟨((Call.execute_balanced t _).ok hexecute).used, hresults, Call.execute_subword hexecute⟩

/-- The tokens of a batch are dropped, its tensor is kept, and a batch with more strings than
offsets is refused. -/
def sampleCommands : List Command :=
  let b := Tokenizer.sampleBatch
  [.call (.tokenize b), .call (.subword b), .call (.subword { b with count := 4 }),
   .drop 0, .drop 0]

def sampleTokenizer : Tokenizer :=
  ⟨{ TokenizerOptions.default with sequenceLength := 3, stride := 2, block := 2 },
    Tokenizer.sampleVocabulary⟩

def sampleState : State :=
  (start ((Device.forwards 1000).take 24)).run sampleTokenizer sampleCommands

theorem run_keeps_ledger_sample :
    sampleState.device.used = 24 + sampleState.liveBytes ∧ sampleState.liveBytes = 108 ∧
      (sampleState.drop 1).device.used = 24 := by
  obtain ⟨-, hbuilt⟩ := run_keeps_ledger sampleTokenizer.toTokenizerOptions
    Tokenizer.sampleVocabulary (.forwards 1000)
  obtain ⟨hvocabulary, hrun⟩ := hbuilt sampleTokenizer ((Device.forwards 1000).take 24) rfl
  obtain ⟨hused, -, -, -, hdrop⟩ := hrun sampleCommands sampleState rfl
  have hlive : sampleState.liveBytes = 108 := by decide +kernel
  have hbytes : (sampleState.held? 1).map Held.bytes = some 108 := by decide +kernel
  obtain ⟨held, hid, hheld⟩ := Option.map_eq_some_iff.mp hbytes
  have hdropped := hdrop 1 held hid
  rw [hused, hvocabulary, hlive, hheld] at hdropped
  exact ⟨hused, hlive, Nat.add_right_cancel hdropped⟩

end State
end TokenizerSession
end GridOps
