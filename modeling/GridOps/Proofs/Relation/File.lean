import GridOps.Proofs.Relation.Sheet
import GridOps.Proofs.Text.Numeral
import GridOps.Relation.File

/-!
Which keys are read from a plain file.

A field denotes an integer of the key type if it is a numeral of it (`integer_ok_iff`).  The keys
are read if and only if every line holds a key and a value, and then they are the keys of all lines
in their order (`readKeys_ok_iff`).  So the decimal rows of any pairs of numbers are read back, and
a malformed line anywhere is enough for no key to be read (`readKeys_outcome`).
-/

namespace GridOps
namespace RelationFile

open JoinKey

/-! ## Fields -/

/-- The text of an integer in a field: a decimal numeral, or a hexadecimal one after `0x`. -/
inductive IsNumeral (negative : Prop) : List Char → Int → Prop
  | decimal {cs : List Char} {n : Int} (h : Numeral.IsInteger negative 10 cs n) :
    IsNumeral negative cs n
  | hexadecimal {cs : List Char} {n : Int} (h : Numeral.IsInteger negative 16 cs n) :
    IsNumeral negative ('0' :: 'x' :: cs) n

/-- The field is a numeral of an integer that the type has. -/
def Denotes (type : KeyType) (field : List UInt8) (n : Int) : Prop :=
  type.lowest ≤ n ∧ n ≤ type.largest ∧
    ∃ cs, field = Utf8.encode cs ∧ IsNumeral (type.lowest < 0) cs n

theorem not_isInteger_hexadecimal {negative : Prop} {cs : List Char} {n : Int} :
    ¬ Numeral.IsInteger negative 10 ('0' :: 'x' :: cs) n := by
  have hletter : ∀ d < 10, 'x' ≠ Nat.digitChar d ∧ 'x' ≠ (Nat.digitChar d).toUpper := by decide
  rintro ⟨ds, -, hds, -⟩
  cases hds with
  | cons _ hds =>
    cases hds with
    | cons hx _ =>
      obtain ⟨hd, hx | hx⟩ := hx
      · exact (hletter _ hd).1 hx
      · exact (hletter _ hd).2 hx

theorem mapError_ok_iff {ε ε' α : Type} {f : ε → ε'} {x : Except ε α} {a : α} :
    x.mapError f = .ok a ↔ x = .ok a := by
  cases x <;> simp [Except.mapError]

/-- A text is read as the numeral that it is. -/
theorem integer_encode_ok_iff {type : KeyType} {cs : List Char} {n : Int} :
    integer type (Utf8.encode cs) = .ok n ↔
      IsNumeral (type.lowest < 0) cs n ∧ type.lowest ≤ n ∧ n ≤ type.largest := by
  have hlargest : 0 ≤ type.largest := by cases type <;> decide
  unfold integer
  rw [Utf8.decode_ok_iff.mpr rfl]
  show Except.mapError FieldError.numeral _ = .ok n ↔ _
  rw [mapError_ok_iff]
  split
  · rename_i digits
    rw [Numeral.parse_ok_iff (by decide) (by decide) type.lowest_le_zero hlargest]
    refine and_congr_left fun _ => ⟨.hexadecimal, ?_⟩
    rintro (h | h)
    · exact absurd h not_isInteger_hexadecimal
    · exact h
  · rename_i hhexadecimal
    rw [Numeral.parse_ok_iff (by decide) (by decide) type.lowest_le_zero hlargest]
    refine and_congr_left fun _ => ⟨.decimal, ?_⟩
    rintro (h | h)
    · exact h
    · exact absurd rfl (hhexadecimal _)

theorem integer_ok_iff {type : KeyType} {field : List UInt8} {n : Int} :
    integer type field = .ok n ↔ Denotes type field n := by
  constructor
  · intro h
    cases htext : Utf8.decode field with
    | error e =>
      unfold integer at h
      rw [htext] at h
      cases h
    | ok cs =>
      obtain rfl := Utf8.decode_ok_iff.mp htext
      obtain ⟨hnumeral, hlowest, hlargest⟩ := integer_encode_ok_iff.mp h
      exact ⟨hlowest, hlargest, cs, rfl, hnumeral⟩
  · rintro ⟨hlowest, hlargest, cs, rfl, hnumeral⟩
    exact integer_encode_ok_iff.mpr ⟨hnumeral, hlowest, hlargest⟩

/-! ## Lines -/

section Lines

variable {K : Type} [JoinKey K]

/-- The line is a key and a value. -/
def Holds (line : Line) (key value : K) : Prop :=
  ∃ first second, line.fields = [first, second] ∧
    Denotes (type K) first (toInt key) ∧ Denotes (type K) second (toInt value)

/-- The line has other than two fields, or one that denotes no integer of the type. -/
def Malformed (type : KeyType) (line : Line) : Prop :=
  line.fields.length ≠ 2 ∨ ∃ field ∈ line.fields, ∀ n, ¬ Denotes type field n

theorem not_malformed_of_holds {line : Line} {k v : K} (h : Holds line k v) :
    ¬ Malformed (type K) line := by
  obtain ⟨first, second, hfields, hkey, hvalue⟩ := h
  unfold Malformed
  rw [hfields]
  rintro (hlength | ⟨field, hmem, hnone⟩)
  · exact hlength rfl
  rcases List.mem_pair.mp hmem with rfl | rfl
  · exact hnone _ hkey
  · exact hnone _ hvalue

theorem key_ok_iff {place : Place} {first second : List UInt8} {k : K} :
    key K ⟨place, [first, second]⟩ = .ok k ↔
      Denotes (type K) first (toInt k) ∧ ∃ v : K, Denotes (type K) second (toInt v) := by
  unfold key
  dsimp only
  constructor
  · intro h
    cases hfirst : integer (type K) first with
    | error e =>
      rw [hfirst] at h
      cases h
    | ok m =>
      cases hsecond : integer (type K) second with
      | error e =>
        rw [hfirst, hsecond] at h
        cases h
      | ok n =>
        rw [hfirst, hsecond] at h
        cases h
        have hm := integer_ok_iff.mp hfirst
        have hn := integer_ok_iff.mp hsecond
        rw [toInt_ofInt m hm.1 hm.2.1]
        refine ⟨hm, ofInt n, ?_⟩
        rwa [toInt_ofInt n hn.1 hn.2.1]
  · rintro ⟨hkey, v, hvalue⟩
    rw [integer_ok_iff.mpr hkey, integer_ok_iff.mpr hvalue]
    exact congrArg Except.ok (ofInt_toInt k)

variable {line : Line} {keys all : Array K} {reader next : RecordReader}

theorem keysFrom_finished (h : reader.next = .finished) : keysFrom 2 keys reader = .ok keys := by
  rw [keysFrom]
  split
  · rfl
  · rename_i hnext
    cases h.symm.trans hnext
  · rename_i hnext
    cases h.symm.trans hnext

/-- Reading gets past a line if it holds a key and a value, and has one key more. -/
theorem keysFrom_line {place : Place} (h : reader.next = .record ⟨place, line.fields⟩ next) :
    keysFrom 2 keys reader = .ok all ↔
      ∃ k v, Holds line k v ∧ keysFrom 2 (keys.push k) next = .ok all := by
  rw [keysFrom]
  split
  · rename_i hnext
    cases h.symm.trans hnext
  · rename_i hnext
    cases h.symm.trans hnext
  rename_i hnext
  cases h.symm.trans hnext
  dsimp only
  constructor
  · intro hall
    split at hall
    · cases hall
    rename_i hlength
    obtain ⟨first, second, hfields⟩ := List.length_eq_two.mp (not_not.mp hlength)
    split at hall
    · rename_i k hkey
      rw [hfields] at hkey
      obtain ⟨hfirst, v, hsecond⟩ := key_ok_iff.mp hkey
      exact ⟨k, v, ⟨first, second, hfields, hfirst, hsecond⟩, hall⟩
    · cases hall
  · rintro ⟨k, v, ⟨first, second, hfields, hfirst, hsecond⟩, hall⟩
    rw [hfields, key_ok_iff.mpr ⟨hfirst, v, hsecond⟩]
    exact hall

end Lines

/-! ## Decimal lines -/

section Pairs

variable {K : Type} [JoinKey K]

def decimal (k : K) : List UInt8 := Utf8.encode (toString (toInt k)).toList

theorem isInteger_decimal (k : K) :
    Numeral.IsInteger ((type K).lowest < 0) 10 (toString (toInt k)).toList (toInt k) :=
  Numeral.isInteger_toString fun hneg => lt_of_le_of_lt (lowest_le k) hneg

theorem denotes_decimal (k : K) : Denotes (type K) (decimal k) (toInt k) :=
  ⟨lowest_le k, le_largest k, _, rfl, .decimal (isInteger_decimal k)⟩

/-- The bytes of a numeral stand behind the space and the line ends. -/
theorem le_of_mem_decimal {k : K} {b : UInt8} (h : b ∈ decimal k) : 43 ≤ b.toNat := by
  have hbounds := (isInteger_decimal k).bounds (by decide)
  obtain ⟨c, hc, hb⟩ := Utf8.exists_of_mem_encode (fun c hc => (hbounds c hc).2) h
  rw [hb]
  exact (hbounds c hc).1

theorem space_not_mem_decimal (k : K) : Record.space ∉ decimal k :=
  fun h => absurd (le_of_mem_decimal h) (by decide)

theorem any_endsLine_decimal (k : K) : (decimal k).any Record.endsLine = false := by
  rw [List.any_eq_false]
  intro b hb hends
  rw [Record.endsLine, Bool.or_eq_true, beq_iff_eq, beq_iff_eq] at hends
  rcases hends with rfl | rfl <;> exact absurd (le_of_mem_decimal hb) (by decide)

/-- The line of a pair. -/
def pairLine (k v : K) : Line where
  bytes := decimal k ++ Record.space :: decimal v
  nonempty := List.append_ne_nil_of_right_ne_nil _ (List.cons_ne_nil _ _)
  within := by
    rw [List.any_append, List.any_cons, any_endsLine_decimal, any_endsLine_decimal]
    rfl

theorem holds_pairLine (k v : K) : Holds (pairLine k v) k v := by
  refine ⟨decimal k, decimal v, ?_, denotes_decimal k, denotes_decimal v⟩
  rw [Line.fields, ← Record.splitFields_eq_splitOn]
  show Record.splitFields (decimal k ++ Record.space :: decimal v) = _
  rw [Record.splitFields_append (space_not_mem_decimal k),
    Record.splitFields_of_not_mem (space_not_mem_decimal v)]

/-- A sheet with a row for every pair, behind its line break. -/
def pairSheet (pairs : List (LineBreak × K × K)) (ending : List LineEnd) : Sheet :=
  ⟨pairs.map fun pair => (pair.1, pairLine pair.2.1 pair.2.2), ending⟩

theorem pairSheet_holds (pairs : List (LineBreak × K × K)) (ending : List LineEnd) :
    List.Forall₂ (fun line k => ∃ v, Holds line k v) (pairSheet pairs ending).lines
      (pairs.map fun pair => pair.2.1) := by
  unfold Sheet.lines pairSheet
  induction pairs with
  | nil => exact .nil
  | cons pair pairs ih => exact .cons ⟨pair.2.2, holds_pairLine pair.2.1 pair.2.2⟩ ih

end Pairs

/-! ## Sheets -/

section Sheets

variable {K : Type} [JoinKey K]

/-- Between two lines the reader stands one byte behind the end of the first. -/
theorem keysFrom_body (ending : List LineEnd) (rows : List (LineBreak × Line)) {keys all : Array K}
    {reader : RecordReader} (hcomplete : reader.complete = true)
    (hrest : reader.rest = (Sheet.body ⟨rows, ending⟩).tail) :
    keysFrom 2 keys reader = .ok all ↔ ∃ more : List K,
      List.Forall₂ (fun line k => ∃ v, Holds line k v) (rows.map Prod.snd) more ∧
        all = keys ++ more.toArray := by
  induction rows generalizing keys reader with
  | nil =>
    rw [keysFrom_finished (reader.next_blank hcomplete ?_)]
    · simp [eq_comm]
    · intro b hb
      rw [hrest, Sheet.body_nil] at hb
      exact LineEnd.endsLine_of_mem (List.mem_of_mem_tail hb)
  | cons row rows ih =>
    obtain ⟨br, line⟩ := row
    obtain ⟨b, rest, hbytes⟩ := br.exists_cons
    have hends : ∀ b ∈ rest, Record.endsLine b = true := fun b hb =>
      LineEnd.endsLine_of_mem (show b ∈ br.bytes from hbytes ▸ List.mem_cons_of_mem _ hb)
    rw [Sheet.body_cons, hbytes, List.cons_append, List.tail_cons] at hrest
    obtain ⟨next, hnext, hrest', hcomplete'⟩ :=
      reader.next_line hcomplete hrest hends fun b => Sheet.endsLine_of_head?
    rw [keysFrom_line hnext]
    constructor
    · rintro ⟨k, v, hline, hall⟩
      obtain ⟨more, hmore, rfl⟩ := (ih hcomplete' hrest').mp hall
      exact ⟨k :: more, .cons ⟨v, hline⟩ hmore, by simp⟩
    · rintro ⟨more, hmore, rfl⟩
      cases hmore with
      | cons hline hmore =>
        obtain ⟨v, hline⟩ := hline
        exact ⟨_, v, hline, (ih hcomplete' hrest').mpr ⟨_, hmore, by simp⟩⟩

variable {name : String} (hplain : Gzip.isCompressedName name = false)
include hplain

/-- The keys of a plain file are those that its lines hold. -/
theorem readKeys_ok_iff {s : Sheet} {keys : Array K} :
    readKeys K name (some s.bytes) = .ok keys ↔
      List.Forall₂ (fun line k => ∃ v, Holds line k v) s.lines keys.toList := by
  have hcontents : Contents.ofFile name s.bytes = ⟨s.bytes, true⟩ := by
    rw [Contents.ofFile, if_neg (by simp [hplain])]
  have hreader : RecordReader.ofContents ⟨s.bytes, true⟩ = ⟨Place.start, s.bytes, true⟩ := by
    have hmark : s.bytes.take 3 ≠ RecordReader.mark := by
      show Utf8.encode "key".toList ≠ _
      decide
    rw [RecordReader.ofContents, if_neg hmark]
  obtain ⟨next, hnext, hrest, hcomplete⟩ :
      ∃ next, RecordReader.next ⟨Place.start, s.bytes, true⟩ =
          .record ⟨Place.start, Sheet.header.fields⟩ next ∧
        next.rest = s.body.tail ∧ next.complete = true :=
    RecordReader.next_line rfl (show s.bytes = [] ++ (Sheet.header.bytes ++ s.body) from rfl)
      (by simp) fun b => Sheet.endsLine_of_head?
  have hkeys : readKeys K name (some s.bytes) = keysFrom 2 #[] next := by
    show RelationFile.keys K (Contents.ofFile name s.bytes) = _
    rw [RelationFile.keys, hcontents, hreader, hnext]
    rfl
  rw [hkeys, keysFrom_body s.ending s.rows hcomplete hrest]
  constructor
  · rintro ⟨more, hmore, rfl⟩
    rwa [Array.empty_append]
  · intro h
    exact ⟨keys.toList, h, by simp⟩

/-- A malformed line keeps all keys from being read, wherever it stands. -/
theorem readKeys_malformed {s : Sheet} {line : Line} (hline : line ∈ s.lines)
    (hmalformed : Malformed (type K) line) : ∃ e, readKeys K name (some s.bytes) = .error e := by
  cases hkeys : readKeys K name (some s.bytes) with
  | error e => exact ⟨e, rfl⟩
  | ok keys =>
    have hholds := (readKeys_ok_iff hplain).mp hkeys
    have hwell : List.Forall₂ (fun line k => ¬ Malformed (type K) line ∧ ∃ v, Holds line k v)
        s.lines keys.toList := by
      refine hholds.imp fun line k hkey => ⟨?_, hkey⟩
      obtain ⟨v, hkey⟩ := hkey
      exact not_malformed_of_holds hkey
    exact absurd hmalformed (((List.forall₂_and_left _ _).mp hwell).1 line hline)

end Sheets

/-- A plain file with a row for every pair is read as the keys of all pairs, in their order.  Any
plain file is read as the keys that its lines hold, and not read if a line is malformed. -/
theorem readKeys_outcome (K : Type) [JoinKey K] {name : String}
    (hplain : Gzip.isCompressedName name = false) :
    (∀ (pairs : List (LineBreak × K × K)) (ending : List LineEnd),
      readKeys K name (some (pairSheet pairs ending).bytes) =
        .ok (pairs.map fun pair => pair.2.1).toArray) ∧
      ∀ s : Sheet,
        (∀ keys : Array K, readKeys K name (some s.bytes) = .ok keys ↔
          List.Forall₂ (fun line k => ∃ v, Holds line k v) s.lines keys.toList) ∧
        ((∃ line ∈ s.lines, Malformed (type K) line) →
          ∃ e, readKeys K name (some s.bytes) = .error e) := by
  refine ⟨fun pairs ending => (readKeys_ok_iff hplain).mpr (pairSheet_holds pairs ending),
    fun s => ⟨fun keys => readKeys_ok_iff hplain, ?_⟩⟩
  rintro ⟨line, hline, hmalformed⟩
  exact readKeys_malformed hplain hline hmalformed

def extremes : List (LineBreak × Int32 × Int32) :=
  [(⟨.both, []⟩, -2147483648, 2147483647), (⟨.carriageReturn, [.lineFeed, .both]⟩, 2147483647, -1),
    (⟨.lineFeed, []⟩, 0, 0)]

/-- A line with a key only, in the middle. -/
def shortened : Sheet where
  rows := [(⟨.lineFeed, []⟩, pairLine (7 : Int32) 70),
    (⟨.lineFeed, []⟩, ⟨[56], by decide, by decide⟩),
    (⟨.lineFeed, []⟩, pairLine (9 : Int32) 90)]
  ending := [.lineFeed]

theorem readKeys_outcome_extremes :
    Gzip.isCompressedName "relation.tsv" = false ∧
      readKeys Int32 "relation.tsv" (some (pairSheet extremes []).bytes) =
        .ok #[-2147483648, 2147483647, 0] ∧
      ∃ e, readKeys Int32 "relation.tsv" (some shortened.bytes) = .error e := by
  have hplain : Gzip.isCompressedName "relation.tsv" = false := by decide
  obtain ⟨hpairs, hsheets⟩ := readKeys_outcome Int32 hplain
  refine ⟨hplain, hpairs extremes [], (hsheets shortened).2 ⟨_, .tail _ (.head _), .inl ?_⟩⟩
  decide

end RelationFile
end GridOps
