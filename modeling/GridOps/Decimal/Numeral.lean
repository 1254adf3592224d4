import GridOps.Decimal.Binary

/-!
Reading a floating point number from a decimal numeral: an optional sign, digits with at most one
point among them, and an optional exponent.  The number nearest to the numeral is read.
-/
namespace GridOps
namespace Decimal

inductive NumeralError
  | empty
  | invalid
deriving DecidableEq, Repr

namespace NumeralError

def message : NumeralError → String
  | empty => "cannot parse float from empty string"
  | invalid => "invalid float literal"

end NumeralError

/-- A numeral without its sign: `digits * 10 ^ exponent`. -/
structure Numeral where
  digits : Nat
  exponent : Int
deriving DecidableEq, Repr

def ofDigits (ds : List Char) : Nat := ds.foldl (fun n d => 10 * n + (d.toNat - 48)) 0

def plainExponent? (ds : List Char) : Option Int :=
  if ds.isEmpty || !ds.all Char.isDigit then none else some (ofDigits ds)

/-- What stands after the mantissa: nothing, or a mark and a number that may have a sign. -/
def exponent? : List Char → Option Int
  | [] => some 0
  | mark :: rest =>
    if mark = 'e' ∨ mark = 'E' then
      match rest with
      | '+' :: ds => plainExponent? ds
      | '-' :: ds => (plainExponent? ds).map (- ·)
      | ds => plainExponent? ds
    else none

def numeral? (cs : List Char) : Option Numeral := do
  let whole := cs.takeWhile Char.isDigit
  let rest := cs.dropWhile Char.isDigit
  let (places, rest) := match rest with
    | '.' :: rest => (rest.takeWhile Char.isDigit, rest.dropWhile Char.isDigit)
    | _ => ([], rest)
  if whole.isEmpty && places.isEmpty then none
  else
    let e ← exponent? rest
    return ⟨ofDigits (whole ++ places), e - places.length⟩

namespace Numeral

/-- No finite number has more places before the point, and none but zero has its first digit as far
behind it. -/
def reach : Int := 400

def nearestBits (n : Numeral) : Nat :=
  let magnitude : Int := (Nat.toDigits 10 n.digits).length + n.exponent
  if n.digits = 0 ∨ magnitude < -reach then 0
  else if reach < magnitude then Binary.infinityBits
  else
    Binary.nearestBits (n.digits * Nat.pow 10 n.exponent.toNat) (Nat.pow 10 (-n.exponent).toNat)

end Numeral

def unsignedBits? (cs : List Char) : Option Nat :=
  match String.ofList (cs.map Char.toLower) with
  | "inf" | "infinity" => some Binary.infinityBits
  | "nan" => some (Binary.infinityBits + Binary.full / 2)
  | _ => (numeral? cs).map Numeral.nearestBits

def bits? : List Char → Option Nat
  | '+' :: cs => unsignedBits? cs
  | '-' :: cs => (unsignedBits? cs).map (Binary.signBit + ·)
  | cs => unsignedBits? cs

def parse (cs : List Char) : Except NumeralError Float :=
  if cs.isEmpty then .error .empty
  else match bits? cs with
    | some bits => .ok (Float.ofBits (UInt64.ofNat bits))
    | none => .error .invalid

end Decimal
end GridOps
