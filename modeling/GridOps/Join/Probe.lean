import GridOps.Join.Columns
import GridOps.Join.Multimap

/-!
Probing a hash table: one thread per probe row looks the row's key up and emits a result row for
every build row found whose secondary keys agree.  Result rows are counted, or written to a buffer
as far as it goes and counted.
-/
namespace GridOps

inductive JoinType
  /-- Only matching pairs of rows. -/
  | inner
  /-- Also a pair with no build row for every probe row that matches none. -/
  | left
deriving DecidableEq, Repr

namespace JoinType

def name : JoinType → String
  | inner => "inner"
  | left => "left"

end JoinType

/-- A probe row and a build row; the largest row index stands for no row. -/
structure Pair (S : Type) where
  first : S
  second : S
deriving DecidableEq, Repr

structure Prober where
  joinType : JoinType
  block : UInt32
deriving DecidableEq, Repr

/-- A buffer that result rows are written to, and the number of result rows so far.  Rows beyond
the buffer are counted only. -/
structure PairBuffer (S : Type) where
  cursor : UInt64
  pairs : Array (Pair S)

/-- Receives the result rows of a probe: a probe row number and a build row. -/
abbrev Emit (S σ : Type) := Nat → S → EStateM Fault σ Unit

namespace Pair

variable {S : Type} [Word S]

/-- The pair of a probe row number and a build row.  The largest row index is no row's. -/
def ofRow (row : Nat) (found : S) : Except Fault (Pair S) :=
  if row < Word.toNat (Word.top S) then .ok ⟨Word.ofNat row, found⟩
  else .error (.rowOverflow (8 * Word.bytes S))

def bytes (S : Type) [Word S] : Nat := 2 * Word.bytes S

def zeros (S : Type) [Word S] (slots : Nat) : Array (Pair S) :=
  Array.replicate slots ⟨Word.ofNat 0, Word.ofNat 0⟩

end Pair

namespace Emit

variable {S : Type} [Word S]

def count : Emit S UInt64 := fun _ _ n => .ok () (n + 1)

/-- Takes the slot at the cursor.  A row beyond the buffer is not made a pair. -/
def write : Emit S (PairBuffer S) := fun row found b =>
  match b with
  | ⟨cursor, pairs⟩ =>
    if h : cursor.toNat < pairs.size then
      match Pair.ofRow row found with
      | .ok pair => .ok () ⟨cursor + 1, pairs.set cursor.toNat pair h⟩
      | .error fault => .error fault ⟨cursor + 1, pairs⟩
    else .ok () ⟨cursor + 1, pairs⟩

end Emit

namespace Prober

variable {K S σ : Type} [JoinKey K] [Word S]

def kernelName (p : Prober) : String :=
  match p.joinType with
  | .inner => "probe_inner_join"
  | .left => "probe_left_join"

/-- Emits `row` with each of the build rows whose secondary keys agree, and tells whether there
was one. -/
def emitMatches (probe build : KeyColumns K) (emit : Emit S σ) (row : Nat) :
    List S → EStateM Fault σ Bool
  | [], s => .ok false s
  | found :: rest, s =>
    match probe.secondarySame row build (Word.toNat found) with
    | .error fault => .error fault s
    | .ok false => emitMatches probe build emit row rest s
    | .ok true =>
      match emit row found s with
      | .error fault s => .error fault s
      | .ok _ s =>
        match emitMatches probe build emit row rest s with
        | .ok _ s => .ok true s
        | .error fault s => .error fault s

/-- The thread of a row below `len` emits that row's results. -/
def kernel (p : Prober) (table : Multimap K S) (probe build : KeyColumns K) (len : Nat)
    (emit : Emit S σ) : Kernel σ := fun t s =>
  let row := t.global
  if len ≤ row then .ok () s
  else match probe.keys[row]? with
    | none => .ok () s
    | some key =>
      match emitMatches probe build emit row (table.find key) s with
      | .error fault s => .error fault s
      | .ok found s =>
        if p.joinType = .left ∧ found = false then emit row (Word.top S) s else .ok () s

/-- Probes the first `len` rows of `probe`, or all if it has fewer. -/
def probe (p : Prober) (table : Multimap K S) (probe build : KeyColumns K) (len : Nat)
    (emit : Emit S σ) (s : σ) : DeviceM JoinError σ := do
  let len := min len probe.len
  if len = 0 then return s
  else DeviceM.mapError .device do
    let l ← DeviceM.ofExcept (Launch.forLen (UInt64.ofNat len) p.block)
    DeviceM.launch p.kernelName l (p.kernel table probe build len emit) s

def count (p : Prober) (table : Multimap K S) (probe build : KeyColumns K) (len : Nat) :
    DeviceM JoinError UInt64 :=
  p.probe table probe build len Emit.count 0

/-- The result rows of the first `len` probe rows, written over `pairs`. -/
def materialize (p : Prober) (table : Multimap K S) (probe build : KeyColumns K) (len : Nat)
    (pairs : Array (Pair S)) : DeviceM JoinError (PairBuffer S) :=
  p.probe table probe build len Emit.write ⟨0, pairs⟩

end Prober
end GridOps
