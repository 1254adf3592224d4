import GridOps.Join.Error
import GridOps.Key

/-!
The key columns of a side of a join: a primary key, which is hashed, and up to two secondary key
columns, which are compared after the primary keys matched.
-/
namespace GridOps

structure Column where
  type : KeyType
  values : Array Int
deriving DecidableEq, Repr

structure KeyColumns (K : Type) where
  keys : Array K
  secondary : List Column

namespace Column

/-- Compares a row with a row of another column.  Columns of different types have no equal rows,
and are not read. -/
def sameAt (left : Column) (i : Nat) (right : Column) (j : Nat) : Except Fault Bool :=
  if left.type ≠ right.type then .ok false
  else match left.values[i]?, right.values[j]? with
    | none, _ => .error (.readOutOfBounds i left.values.size)
    | some _, none => .error (.readOutOfBounds j right.values.size)
    | some a, some b => .ok (a == b)

/-- Compares a row in all columns that both lists have, up to the first difference. -/
def allSameAt : List Column → Nat → List Column → Nat → Except Fault Bool
  | l :: ls, i, r :: rs, j =>
    match l.sameAt i r j with
    | .ok true => allSameAt ls i rs j
    | result => result
  | _, _, _, _ => .ok true

end Column

namespace KeyColumns

variable {K : Type}

def len (side : KeyColumns K) : Nat := side.keys.size

def maxColumns : Nat := 3

def secondarySame (side : KeyColumns K) (i : Nat) (other : KeyColumns K) (j : Nat) :
    Except Fault Bool :=
  Column.allSameAt side.secondary i other.secondary j

def checkSide (side : KeyColumns K) : Except JoinError Unit :=
  if maxColumns < side.secondary.length + 1 then
    .error (.tooManyColumns (side.secondary.length + 1))
  else match side.secondary.find? fun c => c.values.size ≠ side.len with
    | some c => .error (.columnLength c.values.size side.len)
    | none => .ok ()

/-- Both sides are well formed and have columns of the same types. -/
def validate (left right : KeyColumns K) : Except JoinError Unit := do
  left.checkSide
  right.checkSide
  if left.secondary.length ≠ right.secondary.length then
    .error (.columnCounts (left.secondary.length + 1) (right.secondary.length + 1))
  else match (left.secondary.zip right.secondary).find? fun (l, r) => l.type ≠ r.type with
    | some (l, r) => .error (.columnTypes l.type.name r.type.name)
    | none => .ok ()

end KeyColumns
end GridOps
