import GridOps.Relation.Draws

/-!
Zipf's distribution on the numbers from 1 to `count`: the weight of `k` is `1 / k ^ exponent`.

A number is drawn by rejection from the integral of the weights, which takes the same time for
every count.  Whatever the rounding does, the number drawn lies between 1 and `count`.
-/
namespace GridOps

/-- The distribution; the two bounds are those of the integral over all numbers. -/
structure Zipf where
  count : Nat
  exponent : Float
  first : Float
  last : Float
  /-- How far to the left of a number a point is accepted without a further look. -/
  slack : Float

namespace Zipf

/-- The quotient `log (1 + x) / x`, by its series around 0. -/
def logQuotient (x : Float) : Float :=
  if x.abs > 1e-4 then (1 + x).log / x
  else 1 - x * (0.5 - x * (1 / 3 - x * (0.25 - x * 0.2)))

/-- The quotient `(exp x - 1) / x`, by its series around 0. -/
def expQuotient (x : Float) : Float :=
  if x.abs > 1e-4 then (x.exp - 1) / x
  else 1 + x / 2 * (1 + x / 3 * (1 + x / 4 * (1 + x / 5)))

def weight (exponent x : Float) : Float := (-exponent * x.log).exp

/-- The integral of the weights up to `x`, which is 0 at 1. -/
def integral (exponent x : Float) : Float := expQuotient ((1 - exponent) * x.log) * x.log

/-- The point up to which the integral is `area`. -/
def integralInverse (exponent area : Float) : Float :=
  let t := area * (1 - exponent)
  (logQuotient (if t < -1 then -1 else t) * area).exp

/-- The distribution on `1 … count`, unless there is no number or the weights do not fall. -/
def build? (count : Nat) (exponent : Float) : Option Zipf :=
  if count = 0 ∨ exponent ≤ 0 then none
  else some
    { count, exponent
      first := integral exponent 1.5 - 1
      last := integral exponent (count.toFloat + 0.5)
      slack := 2 - integralInverse exponent (integral exponent 2.5 - weight exponent 2) }

def nearest (z : Zipf) (x : Float) : Nat := max 1 (min z.count (x + 0.5).toUInt64.toNat)

/-- How often a draw is repeated; that so many are rejected does not happen in practice. -/
def maxAttempts : Nat := 64

/-- Takes draws from `i` on until one is accepted, or until none is left to try. -/
def sampleFrom (z : Zipf) (draws : Draws) : Nat → Nat → Nat
  | 0, _ => 1
  | attempts + 1, i =>
    let area := z.last + draws.fraction i * (z.first - z.last)
    let x := integralInverse z.exponent area
    let k := z.nearest x
    let mid := k.toFloat
    if mid - x ≤ z.slack ∨ area ≥ integral z.exponent (mid + 0.5) - weight z.exponent mid then k
    else sampleFrom z draws attempts (i + 1)

def sample (z : Zipf) (draws : Draws) (i : Nat) : Nat :=
  z.sampleFrom draws maxAttempts (i * maxAttempts)

theorem build?_count {count : Nat} {exponent : Float} {z : Zipf}
    (h : build? count exponent = some z) : z.count = count := by
  unfold build? at h
  split at h
  · cases h
  · cases h
    rfl

theorem one_le_sampleFrom (z : Zipf) (draws : Draws) (attempts i : Nat) :
    1 ≤ z.sampleFrom draws attempts i := by
  induction attempts generalizing i with
  | zero => exact Nat.le_refl 1
  | succ attempts ih =>
    simp only [sampleFrom]
    split
    · exact Nat.le_max_left ..
    · exact ih (i + 1)

theorem sampleFrom_le (z : Zipf) (h : 1 ≤ z.count) (draws : Draws) (attempts i : Nat) :
    z.sampleFrom draws attempts i ≤ z.count := by
  induction attempts generalizing i with
  | zero => exact h
  | succ attempts ih =>
    simp only [sampleFrom]
    split
    · exact Nat.max_le.2 ⟨h, Nat.min_le_left ..⟩
    · exact ih (i + 1)

end Zipf
end GridOps
