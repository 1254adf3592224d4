/-!
Reading integers of a bounded type from text, with the reason why a text is none.

A numeral is an optional sign and at least one digit.  It is read from the left, and the first
digit that is none, or that takes the number out of the type, decides the error.
-/
namespace GridOps

inductive NumeralError
  | empty
  | invalidDigit
  | tooLarge
  | tooSmall
deriving DecidableEq, Repr

namespace NumeralError

def message : NumeralError → String
  | empty => "cannot parse integer from empty string"
  | invalidDigit => "invalid digit found in string"
  | tooLarge => "number too large to fit in target type"
  | tooSmall => "number too small to fit in target type"

end NumeralError

namespace Numeral

def digit? (base : Nat) (c : Char) : Option Nat :=
  let n := c.toNat
  let value? :=
    if 48 ≤ n ∧ n ≤ 57 then some (n - 48)
    else if 97 ≤ n ∧ n ≤ 102 then some (n - 87)
    else if 65 ≤ n ∧ n ≤ 70 then some (n - 55)
    else none
  value?.filter (· < base)

/-- Reads digits behind the number `acc`, which stays at most `limit`. -/
def digits (base limit : Nat) (overflow : NumeralError) :
    List Char → (acc : Nat) → Except NumeralError Nat
  | [], acc => .ok acc
  | c :: rest, acc =>
    match digit? base c with
    | none => .error .invalidDigit
    | some d =>
      if limit < acc * base + d then .error overflow
      else digits base limit overflow rest (acc * base + d)

def magnitude (base limit : Nat) (overflow : NumeralError) (cs : List Char) :
    Except NumeralError Nat :=
  if cs.isEmpty then .error .invalidDigit else digits base limit overflow cs 0

/-- Reads an integer from `lowest` to `largest`.  Only a type with negative numbers has a minus
sign. -/
def parse (lowest largest : Int) (base : Nat) : List Char → Except NumeralError Int
  | [] => .error .empty
  | '+' :: rest => do return (← magnitude base largest.toNat .tooLarge rest)
  | '-' :: rest => do
    if lowest < 0 then return -(← magnitude base (-lowest).toNat .tooSmall rest : Nat)
    else .error .invalidDigit
  | cs => do return (← magnitude base largest.toNat .tooLarge cs)

def word (bits : Nat) (cs : List Char) : Except NumeralError Nat := do
  return (← parse 0 (Nat.pow 2 bits - 1 : Nat) 10 cs).toNat

end Numeral
end GridOps
