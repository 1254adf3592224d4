import GridOps.Relation.Error
import GridOps.Relation.Zipf

/-!
Generators of join keys.

A generator fills an array of keys that exists already.  No generator produces the reserved key
of the type, since each checks its numbers against the largest key.
-/
namespace GridOps

/-- A step that fills an array of keys; a step that fails leaves the array as far as it came. -/
abbrev Fill (K : Type) := EStateM RelationError (Array K)

namespace Relation

variable {K : Type} [JoinKey K]

/-- Refuses an empty range of keys, and one that ends above the largest key. -/
def checkRange (K : Type) [JoinKey K] (lo hi : Nat) : Except RelationError Unit :=
  let largest := (JoinKey.type K).largestKey
  if hi < lo then .error (.emptyRange lo hi)
  else if largest < hi then .error (.rangeEnd hi largest)
  else .ok ()

/--
The number of the primary key at place `i` of `len`: `i + 1` with a likelihood of `selectivity`
percent, and otherwise the number that lies `len` above.
-/
def primaryNumber (selection : Draws) (selectivity len i : Nat) : Nat :=
  if selection.percent i ≤ selectivity then i + 1 else i + 1 + len

def primaryKey (K : Type) [JoinKey K] (selection : Draws) (selectivity len i : Nat) :
    Except RelationError K :=
  keyOfNat K (primaryNumber selection selectivity len i)

/-- Writes `f i` at each of the places `i`, up to the first that fails. -/
def writeEach (f : Nat → Except RelationError K) : List Nat → Fill K Unit
  | [] => pure ()
  | i :: rest => do
    match f i with
    | .ok key => modify (·.setIfInBounds i key)
    | .error e => throw e
    writeEach f rest

/--
Unique keys in random order, of which `selectivity` percent lie in `1 … len`.  The places are
written one after the other and exchanged at the end.
-/
def primary (selection order : Draws) (selectivity : Nat := 100) : Fill K Unit := do
  let len := (← get).size
  writeEach (primaryKey K selection selectivity len) (List.range len)
  modify order.shuffle

/--
Unique keys in random order, of which `selectivity` percent lie in `1 … len`.  All keys are made
and sorted by random tags before the first is written.
-/
def primaryByTag (selection order : Draws) (selectivity : Nat := 100) : Fill K Unit := do
  let len := (← get).size
  match (List.range len).mapM (primaryKey K selection selectivity len) with
  | .ok keys => set (order.sortByTag keys).toArray
  | .error e => throw e

/-- The keys of another relation one after the other, again and again, in random order. -/
def foreign (primary : Array K) (order : Draws) : Fill K Unit :=
  modify fun keys => order.shuffle (keys.mapIdx fun i key => primary[i % primary.size]?.getD key)

/-- Fills all places with numbers that have been checked already. -/
def writeNumbers (number : Nat → Nat) : Fill K Unit :=
  modify (·.mapIdx fun i _ => JoinKey.ofInt (number i))

/-- Keys from `lo` to `hi`, each as likely as the others. -/
def uniform (lo hi : Nat) (draws : Draws) : Fill K Unit := do
  match checkRange K lo hi with
  | .ok () => writeNumbers (draws.between lo hi)
  | .error e => throw e

def zipf (count : Nat) (exponent : Float) (draws : Draws) : Fill K Unit := do
  match checkRange K 1 count with
  | .ok () => match Zipf.build? count exponent with
    | some z => writeNumbers (z.sample draws)
    | none => throw .zipfParameters
  | .error e => throw e

def generate (len : Nat) (fill : Fill K Unit) : Except RelationError (Array K) :=
  match fill (Array.replicate len (JoinKey.ofInt 0)) with
  | .ok () keys => .ok keys
  | .error e _ => .error e

/-! ## The keys of a range -/

/-- Each key is one of the numbers from `lo` to `hi`. -/
def Within (lo hi : Nat) (keys : Array K) : Prop :=
  ∀ key ∈ keys, ∃ n : Nat, lo ≤ n ∧ n ≤ hi ∧ key = JoinKey.ofInt n

variable {lo hi len count : Nat} {draws : Draws} {keys : Array K}

theorem checkRange_ok (h : checkRange K lo hi = .ok ()) : lo ≤ hi := by
  unfold checkRange at h
  dsimp only at h
  split at h
  · cases h
  · omega

theorem generate_writeNumbers {number : Nat → Nat} (hnumber : ∀ i, lo ≤ number i ∧ number i ≤ hi)
    (h : generate len (writeNumbers number) = .ok keys) : keys.size = len ∧ Within lo hi keys := by
  cases h
  refine ⟨by simp, fun key hkey => ?_⟩
  obtain ⟨i, -, rfl⟩ := Array.mem_mapIdx.mp hkey
  exact ⟨number i, (hnumber i).1, (hnumber i).2, rfl⟩

theorem generate_uniform (h : generate len (uniform lo hi draws) = .ok keys) :
    keys.size = len ∧ Within lo hi keys := by
  unfold uniform at h
  cases hrange : checkRange K lo hi with
  | error e =>
    rw [hrange] at h
    cases h
  | ok =>
    rw [hrange] at h
    exact generate_writeNumbers
      (fun i => ⟨draws.le_between lo hi i, draws.between_le (checkRange_ok hrange) i⟩) h

theorem generate_zipf {exponent : Float} (h : generate len (zipf count exponent draws) = .ok keys) :
    keys.size = len ∧ Within 1 count keys := by
  unfold zipf at h
  cases hrange : checkRange K 1 count with
  | error e =>
    rw [hrange] at h
    cases h
  | ok =>
    rw [hrange] at h
    dsimp only at h
    cases hbuild : Zipf.build? count exponent with
    | none =>
      rw [hbuild] at h
      cases h
    | some z =>
      rw [hbuild] at h
      have hcount := Zipf.build?_count hbuild
      have hpos : 1 ≤ z.count := hcount ▸ checkRange_ok hrange
      exact generate_writeNumbers (fun i =>
        ⟨z.one_le_sampleFrom draws _ _, hcount ▸ z.sampleFrom_le hpos draws _ _⟩) h

end Relation
end GridOps
