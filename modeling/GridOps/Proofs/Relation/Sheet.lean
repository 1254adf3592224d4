import GridOps.Proofs.Text.Utf8
import GridOps.Relation.Record

/-!
How a plain file of a relation is written, and how its lines are found again.

A sheet is a header and rows.  Every line may end in any of three ways, with blank lines behind it,
and the last one need not end.  A reader that stands before a line takes its fields as a record and
stands before the next line (`RecordReader.next_line`), until there are only blank lines left
(`RecordReader.next_blank`).
-/

namespace GridOps

inductive LineEnd
  | lineFeed
  | carriageReturn
  | both
deriving DecidableEq, Repr

namespace LineEnd

def bytes : LineEnd → List UInt8
  | lineFeed => [Record.lineFeed]
  | carriageReturn => [Record.carriageReturn]
  | both => [Record.carriageReturn, Record.lineFeed]

theorem endsLine_of_mem {b : UInt8} {ends : List LineEnd} (h : b ∈ ends.flatMap bytes) :
    Record.endsLine b = true := by
  obtain ⟨e, -, hb⟩ := List.mem_flatMap.mp h
  cases e <;> simp only [bytes, List.mem_cons, List.not_mem_nil, or_false] at hb
  · rw [hb]
    rfl
  · rw [hb]
    rfl
  · rcases hb with rfl | rfl <;> rfl

end LineEnd

/-- The end of a line, with the blank lines behind it. -/
structure LineBreak where
  lineEnd : LineEnd
  blanks : List LineEnd
deriving DecidableEq, Repr

def LineBreak.bytes (br : LineBreak) : List UInt8 :=
  (br.lineEnd :: br.blanks).flatMap LineEnd.bytes

theorem LineBreak.exists_cons (br : LineBreak) : ∃ b rest, br.bytes = b :: rest := by
  obtain ⟨lineEnd, blanks⟩ := br
  cases lineEnd <;> exact ⟨_, _, rfl⟩

/-- A line that is not blank. -/
structure Line where
  bytes : List UInt8
  nonempty : bytes ≠ []
  within : bytes.any Record.endsLine = false

namespace Line

/-- The parts of a line between its spaces. -/
def fields (line : Line) : List (List UInt8) := line.bytes.splitOn Record.space

theorem endsLine_eq_false {line : Line} {b : UInt8} (h : b ∈ line.bytes) :
    Record.endsLine b = false :=
  Bool.eq_false_iff.mpr (List.any_eq_false.mp line.within b h)

end Line

/-- A file of a relation: its lines after the header, each with what stands before it, and what
stands behind the last one. -/
structure Sheet where
  rows : List (LineBreak × Line)
  ending : List LineEnd

namespace Sheet

def header : Line where
  bytes := Utf8.encode "key value".toList
  nonempty := by decide
  within := by decide

def lines (s : Sheet) : List Line := s.rows.map Prod.snd

/-- What follows the header. -/
def body (s : Sheet) : List UInt8 :=
  s.rows.flatMap (fun row => row.1.bytes ++ row.2.bytes) ++ s.ending.flatMap LineEnd.bytes

def bytes (s : Sheet) : List UInt8 := header.bytes ++ s.body

theorem body_nil (ending : List LineEnd) : body ⟨[], ending⟩ = ending.flatMap LineEnd.bytes := rfl

theorem body_cons (br : LineBreak) (line : Line) (rows : List (LineBreak × Line))
    (ending : List LineEnd) :
    body ⟨(br, line) :: rows, ending⟩ = br.bytes ++ (line.bytes ++ body ⟨rows, ending⟩) := by
  simp only [body, List.flatMap_cons, List.append_assoc]

/-- Behind every line there is a line end, or nothing. -/
theorem endsLine_of_head? {s : Sheet} {b : UInt8} (h : s.body.head? = some b) :
    Record.endsLine b = true := by
  obtain ⟨_ | ⟨⟨br, line⟩, rows⟩, ending⟩ := s
  · exact LineEnd.endsLine_of_mem (List.mem_of_mem_head? h)
  · obtain ⟨first, rest, hbytes⟩ := br.exists_cons
    rw [body_cons, hbytes] at h
    cases h
    exact LineEnd.endsLine_of_mem (hbytes ▸ List.mem_cons_self : b ∈ br.bytes)

end Sheet

/-! ## Reading a line -/

theorem Record.splitFields_eq_splitOn (line : List UInt8) :
    splitFields line = line.splitOn space := by
  induction line with
  | nil => rfl
  | cons b rest ih =>
    rw [List.splitOn, List.splitOnP_cons_eq_if_modifyHead, ← List.splitOn, ← ih, splitFields]
    by_cases hb : b = space
    · rw [if_pos hb, if_pos (by simpa using hb)]
    · rw [if_neg hb, if_neg (by simpa using hb)]
      cases hrest : splitFields rest with
      | nil => exact absurd hrest (splitFields_ne_nil rest)
      | cons field fields => rfl

section Span

variable {α : Type} {p : α → Bool} {first rest : List α}

theorem takeWhile_span (hfirst : ∀ a ∈ first, p a = true)
    (hrest : ∀ a, rest.head? = some a → p a = false) : (first ++ rest).takeWhile p = first := by
  rw [List.takeWhile_append_of_pos hfirst]
  cases rest with
  | nil => exact List.append_nil first
  | cons a rest => rw [List.takeWhile_cons_of_neg (by simp [hrest a rfl]), List.append_nil]

theorem dropWhile_span (hfirst : ∀ a ∈ first, p a = true)
    (hrest : ∀ a, rest.head? = some a → p a = false) : (first ++ rest).dropWhile p = rest := by
  rw [List.dropWhile_append_of_pos hfirst]
  cases rest with
  | nil => rfl
  | cons a rest => rw [List.dropWhile_cons_of_neg (by simp [hrest a rfl])]

end Span

namespace RecordReader

variable {reader : RecordReader} (hcomplete : reader.complete = true)
include hcomplete

/-- Behind line ends, a line is the next record.  The byte that ends it is read with it. -/
theorem next_line {ends body : List UInt8} {line : Line}
    (hrest : reader.rest = ends ++ (line.bytes ++ body))
    (hends : ∀ b ∈ ends, Record.endsLine b = true)
    (hbody : ∀ b, body.head? = some b → Record.endsLine b = true) :
    ∃ next, reader.next = .record ⟨reader.place, line.fields⟩ next ∧
      next.rest = body.tail ∧ next.complete = true := by
  have hwithin : ∀ b ∈ line.bytes, (!Record.endsLine b) = true := fun b hb => by
    rw [Line.endsLine_eq_false hb]
    rfl
  have hhead : ∀ b, (line.bytes ++ body).head? = some b → Record.endsLine b = false := by
    intro b hb
    obtain ⟨first, rest, hbytes⟩ := List.exists_cons_of_ne_nil line.nonempty
    rw [hbytes] at hb
    cases hb
    exact Line.endsLine_eq_false (hbytes ▸ List.mem_cons_self : b ∈ line.bytes)
  have hbody' : ∀ b, body.head? = some b → (!Record.endsLine b) = false := fun b hb => by
    rw [hbody b hb]
    rfl
  have hafterBlanks : reader.afterBlanks = line.bytes ++ body := by
    rw [afterBlanks, hrest, dropWhile_span hends hhead]
  have hline : reader.line = line.bytes := by
    rw [RecordReader.line, hafterBlanks, takeWhile_span hwithin hbody']
  have hafter : reader.afterLine = body := by
    rw [afterLine, hafterBlanks, dropWhile_span hwithin hbody']
  simp only [next, hafter, hline, hcomplete, Record.splitFields_eq_splitOn]
  cases body with
  | nil =>
    rw [if_neg (by simp), if_neg (by simpa using line.nonempty)]
    exact ⟨_, rfl, rfl, hcomplete⟩
  | cons b rest => exact ⟨_, rfl, rfl, hcomplete⟩

/-- With line ends only, the reader is at the end. -/
theorem next_blank (hrest : ∀ b ∈ reader.rest, Record.endsLine b = true) :
    reader.next = .finished := by
  have hafterBlanks : reader.afterBlanks = [] := by
    have hspan : (reader.rest ++ []).dropWhile Record.endsLine = [] :=
      dropWhile_span hrest (by simp)
    rwa [List.append_nil] at hspan
  have hline : reader.line = [] := by
    rw [RecordReader.line, hafterBlanks, List.takeWhile_nil]
  have hafter : reader.afterLine = [] := by
    rw [afterLine, hafterBlanks, List.dropWhile_nil]
  simp only [next, hafter, hline, hcomplete]
  rfl

end RecordReader
end GridOps
