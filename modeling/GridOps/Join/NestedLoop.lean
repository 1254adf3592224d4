import GridOps.Join.Columns
import GridOps.Join.Probe

/-!
The nested-loop join: the result of a join by its definition.

It knows when two primary keys are equal and nothing else about how a join works: no hash, no
table and no device.
-/
namespace GridOps
namespace NestedLoop

variable {K : Type}

/-- Whether row `i` of `probe` and row `j` of `build` agree in all keys. -/
def rowsMatch (equal : K → K → Bool) (probe build : KeyColumns K) (i j : Nat) : Bool :=
  match probe.keys[i]?, build.keys[j]? with
  | some a, some b => equal b a && (probe.secondarySame i build j).toOption == some true
  | _, _ => false

/-- The rows of `build` that match row `i` of `probe`, in ascending order. -/
def matching (equal : K → K → Bool) (probe build : KeyColumns K) (i : Nat) : List Nat :=
  (List.range build.len).filter (rowsMatch equal probe build i)

def resultRows (joinType : JoinType) (equal : K → K → Bool) (probe build : KeyColumns K)
    (i : Nat) : List (Nat × Option Nat) :=
  match joinType, matching equal probe build i with
  | .left, [] => [(i, none)]
  | _, found => found.map fun j => (i, some j)

/-- The result rows of the first `len` probe rows, probe row by probe row. -/
def join (joinType : JoinType) (equal : K → K → Bool) (probe build : KeyColumns K) (len : Nat) :
    List (Nat × Option Nat) :=
  (List.range len).flatMap (resultRows joinType equal probe build)

end NestedLoop
end GridOps
