import GridOps.Device.Error

/-!
Sizes: numbers that a 64-bit word holds.

A sum or a product of sizes need not be one, and neither need a difference.  Who asks first sees
that there is none (`of?`), and who does not ask stops with a fault.
-/
namespace GridOps
namespace Size

/-- The number, if it is a size. -/
def of? (n : Nat) : Option Nat := if n < UInt64.size then some n else none

def add (a b : Nat) : Except Fault Nat :=
  if a + b < UInt64.size then .ok (a + b) else .error .additionOverflow

def sub (a b : Nat) : Except Fault Nat :=
  if b ≤ a then .ok (a - b) else .error .subtractionOverflow

def mul (a b : Nat) : Except Fault Nat :=
  if a * b < UInt64.size then .ok (a * b) else .error .multiplicationOverflow

theorem of?_of_lt {n : Nat} (h : n < UInt64.size) : of? n = some n := if_pos h

theorem of?_of_le {n : Nat} (h : UInt64.size ≤ n) : of? n = none :=
  if_neg (Nat.not_lt_of_le h)

theorem add_of_lt {a b : Nat} (h : a + b < UInt64.size) : add a b = .ok (a + b) := if_pos h

theorem add_of_le {a b : Nat} (h : UInt64.size ≤ a + b) : add a b = .error .additionOverflow :=
  if_neg (Nat.not_lt_of_le h)

theorem sub_of_le {a b : Nat} (h : b ≤ a) : sub a b = .ok (a - b) := if_pos h

theorem mul_of_lt {a b : Nat} (h : a * b < UInt64.size) : mul a b = .ok (a * b) := if_pos h

theorem mul_of_le {a b : Nat} (h : UInt64.size ≤ a * b) :
    mul a b = .error .multiplicationOverflow := if_neg (Nat.not_lt_of_le h)

/-- How many parts of `per` it takes for `len`. -/
def parts (len per : Nat) : Nat := (len + per - 1) / per

/-- `parts` with sizes: the sum that is rounded down has to be one. -/
def countParts (len per : Nat) : Except Fault Nat := do
  return ((← add len per) - 1) / per

variable {len per : Nat}

theorem countParts_of_lt (h : len + per < UInt64.size) :
    countParts len per = .ok (parts len per) := by
  rw [countParts, add_of_lt h]
  rfl

theorem countParts_of_le (h : UInt64.size ≤ len + per) :
    countParts len per = .error .additionOverflow := by
  rw [countParts, add_of_le h]
  rfl

end Size
end GridOps
