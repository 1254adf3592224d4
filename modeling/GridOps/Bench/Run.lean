import GridOps.Bench.Error
import GridOps.Bench.Settings
import GridOps.Relation.DataSet

/-!
Running a benchmark: a device, a join and two relations, and then the join again and again.

The outer relation is the left side of the join and the inner relation the right side.
-/
namespace GridOps

structure Measurement where
  rows : Nat
  statistics : JoinStatistics
deriving DecidableEq, Repr

namespace RelationPair

variable {K : Type} [JoinKey K]

/-- The relations that two files hold; the inner one is read first. -/
def ofContents (inner outer : Contents) : Except RelationFileError (RelationPair K) := do
  return ⟨← RelationFile.keys K inner, ← RelationFile.keys K outer⟩

def measureWith (S : Type) [Word S] (p : RelationPair K) (j : HashJoin) :
    DeviceM JoinError Measurement := do
  let result : JoinResult S ← j.execute Keying.default ⟨p.outer, []⟩ ⟨p.inner, []⟩
  modify (·.release result.bytes)
  return ⟨result.len, result.statistics⟩

/-- Joins the relations, with row indices of 32 bits if both are short enough for these. -/
def measure (p : RelationPair K) (j : HashJoin) : DeviceM JoinError Measurement :=
  if max p.inner.size p.outer.size < UInt32.size - 1 then p.measureWith UInt32 j
  else p.measureWith UInt64 j

end RelationPair

namespace Settings

def device (s : Settings) : Except BenchError Device :=
  (Device.build s.ordinal s.workers Device.defaultMorsel (s.memory?.getD Device.maxBytes)).mapError
    .device

def hashJoin (s : Settings) : Except BenchError HashJoin := s.join.build.mapError .join

def outerKeys {K : Type} [JoinKey K] (s : Settings) (len : Nat) (draws : Draws) :
    Except BenchError (Fill K Unit) :=
  match s.distribution, s.exponent? with
  | .uniform, _ => .ok (Relation.uniform 1 len draws)
  | .zipf, some exponent => .ok (Relation.zipf len exponent draws)
  | .zipf, none => .error .noExponent

def customLengths (s : Settings) : Except BenchError (Nat × Nat) :=
  match s.innerLen?, s.outerLen? with
  | none, _ => .error .noInnerLength
  | _, none => .error .noOuterLength
  | some inner, some outer => .ok (inner, outer)

/-- Generates the relations of the data set.  A distribution that lacks its exponent is refused
for every data set. -/
def generate (K : Type) [JoinKey K] (s : Settings) (draws : PairDraws) :
    Except BenchError (RelationPair K) := do
  let _ ← outerKeys (K := K) s 1 draws.outer
  let generated (r : Except RelationError (RelationPair K)) : Except BenchError (RelationPair K) :=
    r.mapError .relation
  let fixed (set : FixedSet) :=
    generated (set.generate K set.primaryLen set.foreignLen draws s.selectivity)
  match s.dataSet with
  | .blanas => fixed .blanas
  | .kim => fixed .kim
  | .test =>
    generated (Relation.generatePair
      (Relation.primary draws.selection draws.order s.selectivity)
      (Relation.uniform 1 1000 draws.outer) 1000 1000)
  | .skewedTail =>
    generated (SkewedTail.generate K (s.innerLen?.getD 1024) (s.outerLen?.getD 65536))
  | .custom => do
    let (inner, outer) ← s.customLengths
    let keys ← s.outerKeys inner draws.outer
    generated (Relation.generatePair
      (Relation.primaryByTag draws.selection draws.order s.selectivity) keys inner outer)

def measureAll {K : Type} [JoinKey K] (s : Settings) (j : HashJoin) (p : RelationPair K) :
    DeviceM JoinError (List Measurement) :=
  (List.range (s.repetitions + 1)).mapM fun _ => p.measure j

def run (K : Type) [JoinKey K] (s : Settings) (draws : PairDraws) :
    Except BenchError (Device × RelationPair K × List Measurement) := do
  let device ← s.device
  let join ← s.hashJoin
  let pair ← s.generate K draws
  match s.measureAll join pair device with
  | .ok measurements _ => return (device, pair, measurements)
  | .error e _ => throw (.join e)

end Settings
end GridOps
