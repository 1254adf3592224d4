import GridOps.Relation.Generate
import GridOps.Size

/-!
Pairs of relations to join, and data sets that are known by name.
-/
namespace GridOps

/-- The keys of the inner relation, which is built on, and of the outer one, which is probed. -/
structure RelationPair (K : Type) where
  inner : Array K
  outer : Array K

structure PairDraws where
  selection : Draws
  order : Draws
  outer : Draws

namespace PairDraws

def ofSeed (seed : UInt64) : PairDraws :=
  ⟨Draws.stream seed 0, Draws.stream seed 1, Draws.stream seed 2⟩

end PairDraws

namespace Relation

def generatePair {K : Type} [JoinKey K] (inner outer : Fill K Unit) (innerLen outerLen : Nat) :
    Except RelationError (RelationPair K) := do
  return ⟨← generate innerLen inner, ← generate outerLen outer⟩

end Relation

/-- A data set of fixed size: primary keys, and foreign keys drawn from the same range. -/
structure FixedSet where
  name : String
  primaryLen : Nat
  foreignLen : Nat

namespace FixedSet

def kim : FixedSet := ⟨"Kim", 128000000, 128000000⟩

def blanas : FixedSet := ⟨"Blanas", 16777216, 268435456⟩

def generate (K : Type) [JoinKey K] (s : FixedSet) (primaryLen foreignLen : Nat)
    (draws : PairDraws) (selectivity : Nat := 100) : Except RelationError (RelationPair K) :=
  if primaryLen ≠ s.primaryLen ∨ foreignLen ≠ s.foreignLen then
    .error (.setLengths s.name s.primaryLen s.foreignLen primaryLen foreignLen)
  else
    Relation.generatePair (Relation.primaryByTag draws.selection draws.order selectivity)
      (Relation.uniform 1 primaryLen draws.outer) primaryLen foreignLen

end FixedSet

/-!
## Skewed tails

The first half of the build relation holds unique keys, and the second half repeats one heavy
key.  As many probe rows as the build relation has refer to the unique keys, and all further ones
to the heavy key.  So the head of the probe relation says nothing about its tail, each row of
which matches the whole second half.
-/
namespace SkewedTail

def generate (K : Type) [JoinKey K] (build probe : Nat) :
    Except RelationError (RelationPair K) :=
  if build < 2 ∨ probe ≤ build then .error (.skewLengths build probe)
  else do
    let heavy ← keyOfNat K build
    let half := build / 2
    let unique (i : Nat) : K := JoinKey.ofInt (i + 1 : Nat)
    return {
      inner := (Array.range half).map unique ++ Array.replicate (build - half) heavy
      outer := (Array.range build).map (fun i => unique (i % half)) ++
        Array.replicate (probe - build) heavy }

/-- The number of rows of the join, computed with sizes. -/
def joinLen (build probe : Nat) : Except Fault Nat := do
  let heavyRows ← Size.sub build (build / 2)
  let tail ← Size.sub probe build
  Size.add build (← Size.mul tail heavyRows)

end SkewedTail
end GridOps
