import GridOps.Gzip.Contents

/-!
Records of a text file: lines of fields that a space separates.

A line ends with a line feed or a carriage return.  Lines without a byte are passed over, so that
a line may also end with both.  Every record has a place, which counts the records before it, the
line feeds and the bytes; it is taken before the blank lines that the record follows.
-/
namespace GridOps

structure Place where
  record : Nat
  line : Nat
  byte : Nat
deriving DecidableEq, Repr

namespace Place

def start : Place := ⟨0, 1, 0⟩

def text (p : Place) : String := s!"record {p.record} (line: {p.line}, byte: {p.byte})"

end Place

structure Record where
  place : Place
  fields : List (List UInt8)
deriving DecidableEq, Repr

namespace Record

def lineFeed : UInt8 := 10
def carriageReturn : UInt8 := 13
def space : UInt8 := 32

def endsLine (b : UInt8) : Bool := b == lineFeed || b == carriageReturn

/-- The fields of a line, one more than it has spaces. -/
def splitFields : List UInt8 → List (List UInt8)
  | [] => [[]]
  | b :: rest =>
    if b = space then [] :: splitFields rest
    else match splitFields rest with
      | field :: fields => (b :: field) :: fields
      | [] => [[b]]

theorem splitFields_ne_nil (line : List UInt8) : splitFields line ≠ [] := by
  cases line with
  | nil => simp [splitFields]
  | cons b rest =>
    simp only [splitFields]
    split
    · simp
    · split <;> simp

/-- A line without spaces is one field. -/
theorem splitFields_of_not_mem {line : List UInt8} (h : space ∉ line) :
    splitFields line = [line] := by
  induction line with
  | nil => rfl
  | cons b rest ih =>
    simp only [List.mem_cons, not_or] at h
    simp only [splitFields, ih h.2]
    rw [if_neg (Ne.symm h.1)]

/-- Fields without spaces are found again between their spaces. -/
theorem splitFields_append {field : List UInt8} (h : space ∉ field) (rest : List UInt8) :
    splitFields (field ++ space :: rest) = field :: splitFields rest := by
  induction field with
  | nil => simp [splitFields]
  | cons b field ih =>
    simp only [List.mem_cons, not_or] at h
    simp only [List.cons_append, splitFields, ih h.2]
    rw [if_neg (Ne.symm h.1)]

end Record

/-- What is still to be read of a file, and how far it has been read. -/
structure RecordReader where
  place : Place
  rest : List UInt8
  /-- Whether the file ends after these bytes; otherwise, reading on fails there. -/
  complete : Bool

inductive RecordStep
  | record (r : Record) (next : RecordReader)
  | finished
  /-- The contents break off before a record is complete. -/
  | brokenOff

namespace RecordReader

def mark : List UInt8 := [0xEF, 0xBB, 0xBF]

def ofContents (c : Contents) : RecordReader :=
  if c.bytes.take 3 = mark then
    ⟨{ Place.start with byte := 3 }, c.bytes.drop 3, c.complete⟩
  else ⟨Place.start, c.bytes, c.complete⟩

def blanks (r : RecordReader) : List UInt8 := r.rest.takeWhile Record.endsLine

def afterBlanks (r : RecordReader) : List UInt8 := r.rest.dropWhile Record.endsLine

/-- The bytes of the next line that is not blank. -/
def line (r : RecordReader) : List UInt8 := r.afterBlanks.takeWhile (!Record.endsLine ·)

/-- The byte that ends this line, if there is one, and all that follows it. -/
def afterLine (r : RecordReader) : List UInt8 := r.afterBlanks.dropWhile (!Record.endsLine ·)

/-- The reader after a record for which it has used some bytes. -/
def advance (r : RecordReader) (used rest : List UInt8) : RecordReader :=
  ⟨⟨r.place.record + 1, r.place.line + used.count Record.lineFeed,
    r.place.byte + used.length⟩, rest, r.complete⟩

def next (r : RecordReader) : RecordStep :=
  let record : Record := ⟨r.place, Record.splitFields r.line⟩
  match r.afterLine with
  | b :: rest => .record record (r.advance (r.blanks ++ r.line ++ [b]) rest)
  | [] =>
    if !r.complete then .brokenOff
    else if r.line.isEmpty then .finished
    else .record record (r.advance (r.blanks ++ r.line) [])

theorem length_eq (r : RecordReader) :
    r.rest.length = r.blanks.length + (r.line.length + r.afterLine.length) := by
  have h := congrArg List.length
    (List.takeWhile_append_dropWhile (p := Record.endsLine) (l := r.rest))
  have h' := congrArg List.length
    (List.takeWhile_append_dropWhile (p := (!Record.endsLine ·)) (l := r.afterBlanks))
  simp only [List.length_append] at h h'
  simp only [blanks, line, afterLine, afterBlanks] at *
  omega

/-- A record uses at least one byte. -/
theorem length_next_lt {r next : RecordReader} {record : Record}
    (h : r.next = .record record next) : next.rest.length < r.rest.length := by
  have len := r.length_eq
  simp only [RecordReader.next] at h
  split at h
  · next b rest hafter =>
    cases h
    simp only [advance, hafter, List.length_cons] at *
    omega
  · split at h
    · cases h
    · split at h
      · cases h
      · next hempty =>
        cases h
        have : r.line.length ≠ 0 := by
          simpa [List.isEmpty_iff, List.length_eq_zero_iff] using hempty
        simp only [advance, List.length_nil]
        omega

end RecordReader
end GridOps
