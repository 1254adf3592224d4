import GridOps.Join.Build
import GridOps.Join.Estimate
import GridOps.Join.Transpose

/-!
The hash join.

A join builds a hash table over one side, estimates the size of the result, probes with the other
side into a buffer of that size, doubles the buffer until the result fits, and splits the result
into left and right rows.  Whatever happens, the device gets back all memory but the result's.
-/
namespace GridOps

/-- Over which side an inner join builds its hash table.  A left join builds over the right. -/
inductive BuildSide
  | smaller
  | right
deriving DecidableEq, Repr

structure JoinOptions where
  joinType : JoinType
  buildSide : BuildSide
  occupancy : Nat
  block : UInt32
  threshold : Nat
  maxRetries : Nat
  maxRows? : Option Nat
deriving DecidableEq, Repr

/-- Options that a join can run with. -/
structure HashJoin extends JoinOptions where
  occupancy_pos : 0 < occupancy
  occupancy_le : occupancy ≤ 100
  block_ne : block ≠ 0
  threshold_ne : threshold ≠ 0

/-- How a join ended: with a result, or early because the result is empty. -/
inductive JoinState
  | done
  | empty
deriving DecidableEq, Repr

structure JoinStatistics where
  finalState : JoinState
  flipped : Bool
  tableCapacity : Nat
  estimate? : Option Estimate
  retries : Nat
  outputCapacity : Nat
deriving DecidableEq, Repr

/-- The rows of a result: `len` left rows, then as many right rows. -/
structure JoinResult (S : Type) where
  rows : Array S
  len : Nat
  statistics : JoinStatistics

namespace JoinOptions

def default : JoinOptions := ⟨.inner, .smaller, 50, 128, 5, 16, none⟩

def build (o : JoinOptions) : Except JoinError HashJoin :=
  if occupancy : 0 < o.occupancy ∧ o.occupancy ≤ 100 then
    if block : o.block = 0 then .error .emptyBlock
    else if threshold : o.threshold = 0 then .error .emptyThreshold
    else .ok ⟨o, occupancy.1, occupancy.2, block, threshold⟩
  else .error (.occupancy o.occupancy)

end JoinOptions

namespace JoinState

def name : JoinState → String
  | done => "Done"
  | empty => "Empty"

end JoinState

namespace JoinResult

variable {S : Type} [Word S]

def bytes (r : JoinResult S) : Nat := 2 * r.len * Word.bytes S

def pairs (r : JoinResult S) : List (S × S) :=
  (r.rows.toList.take r.len).zip (r.rows.toList.drop r.len)

/-- The right row of a result row, or none for a left row that matched nothing. -/
def row? (row : S) : Option Nat :=
  if Word.toNat row = Word.toNat (Word.top S) then none else some (Word.toNat row)

end JoinResult

namespace HashJoin

variable {K S : Type} [JoinKey K] [Word S]

/-- Whether the join builds over the left side: the right side of an inner join is longer. -/
def flips (j : HashJoin) (left right : KeyColumns K) : Bool :=
  j.joinType = .inner && j.buildSide = .smaller && decide (left.len < right.len)

def prober (j : HashJoin) : Prober := ⟨j.joinType, j.block⟩

/-- At most the limit on result rows. -/
def clamp (j : HashJoin) (rows : Nat) : Nat :=
  match j.maxRows? with
  | some limit => min rows limit
  | none => rows

/-- The result must not have more rows than the limit. -/
def checkLimit (j : HashJoin) (found : Nat) : Except JoinError Unit :=
  match j.maxRows? with
  | some limit => if limit < found then .error (.overLimit found limit) else .ok ()
  | none => .ok ()

/-- A side must have fewer rows than the largest row index. -/
def checkRows (S : Type) [Word S] (side : KeyColumns K) : Except JoinError Unit :=
  if Word.toNat (Word.top S) ≤ side.len then .error (.inputRows side.len) else .ok ()

/-- The number of rows that a probe wrote to a buffer of `slots` pairs and, if they fit, the rows
split into left and right. -/
def finish (j : HashJoin) (flip : Bool) (slots : Nat) (output : PairBuffer S) :
    DeviceM JoinError (Nat × Option (Array S)) := do
  let found := output.cursor.toNat
  if found ≤ slots then
    let rows ← DeviceM.mapError .device (Pair.split (output.pairs.take found) flip j.block)
    return (found, some rows)
  else return (found, none)

/-- One probe into a buffer of `slots` pairs. -/
def attempt (j : HashJoin) (flip : Bool) (table : Multimap K S) (probe build : KeyColumns K)
    (slots : Nat) : DeviceM JoinError (Nat × Option (Array S)) := do
  DeviceM.mapError .device (DeviceM.allocate slots (Pair.bytes S))
  DeviceM.withBytes (slots * Pair.bytes S) do
    j.finish flip slots (← j.prober.materialize table probe build probe.len (Pair.zeros S slots))

/-- The result of a join that found its rows: how many, where, after how many retries, and with a
buffer of how many pairs. -/
structure Found (S : Type) where
  len : Nat
  rows : Array S
  retries : Nat
  slots : Nat

/-- Probes with a buffer of `slots` pairs, doubling it while the result does not fit, for at most
`left` more times. -/
def grow (j : HashJoin) (flip : Bool) (table : Multimap K S) (probe build : KeyColumns K) :
    (left retries slots : Nat) → DeviceM JoinError (Found S)
  | left, retries, slots => do
    match ← j.attempt flip table probe build slots with
    | (found, some rows) => return ⟨found, rows, retries, slots⟩
    | (found, none) =>
      DeviceM.ofExcept (j.checkLimit found)
      match left with
      | 0 => DeviceM.fail (.retriesExhausted found slots retries)
      | left + 1 =>
        if Device.maxBytes < slots * 2 then DeviceM.fail .growthOverflow
        else grow j flip table probe build left (retries + 1) (j.clamp (slots * 2))

def emptyResult (statistics : JoinStatistics) : JoinResult S :=
  ⟨#[], 0, { statistics with finalState := .empty }⟩

def probeTable (j : HashJoin) (flip : Bool) (table : Multimap K S) (probe build : KeyColumns K) :
    DeviceM JoinError (JoinResult S) := do
  let estimate ← (Estimator.mk j.prober j.threshold).estimate table probe build
  let statistics : JoinStatistics := ⟨.empty, flip, table.capacity, some estimate, 0, 0⟩
  if estimate.rows = 0 then return emptyResult statistics
  else
    DeviceM.mapError .device (DeviceM.reserveItems 1 DeviceM.counterBytes)
    DeviceM.withBytes DeviceM.counterBytes do
      let found ← j.grow flip table probe build j.maxRetries 0 (j.clamp estimate.rows)
      return ⟨found.rows, found.len,
        { statistics with
          finalState := .done, retries := found.retries, outputCapacity := found.slots }⟩

/-- The side whose rows are looked up. -/
def probed (j : HashJoin) (left right : KeyColumns K) : KeyColumns K :=
  if j.flips left right then right else left

/-- The side that the hash table is built over. -/
def built (j : HashJoin) (left right : KeyColumns K) : KeyColumns K :=
  if j.flips left right then left else right

/-- Checks the sides, builds the hash table and goes on with `body`.  A join whose sides alone show
that its result is empty ends with `early` instead. -/
def prepare {α : Type} (j : HashJoin) (keying : Keying K) (left right : KeyColumns K) (early : α)
    (body : Multimap K S → DeviceM JoinError α) : DeviceM JoinError α := do
  DeviceM.ofExcept (left.validate right)
  DeviceM.ofExcept (checkRows S left)
  DeviceM.ofExcept (checkRows S right)
  let build := j.built left right
  if (j.probed left right).len = 0 ∨ (build.len = 0 ∧ j.joinType = .inner) then return early
  else
    let capacity ← DeviceM.ofExcept (Multimap.capacityFor build.len j.occupancy)
    Multimap.withTable capacity keying fun table => do
      body (← table.buildOrFail j.block build.keys)

/-- Joins `left` with `right`.  The rows of the result are device memory. -/
def execute (j : HashJoin) (keying : Keying K) (left right : KeyColumns K) :
    DeviceM JoinError (JoinResult S) :=
  let flip := j.flips left right
  j.prepare keying left right (emptyResult ⟨.empty, flip, 0, none, 0, 0⟩) fun table =>
    j.probeTable flip table (j.probed left right) (j.built left right)

end HashJoin
end GridOps
