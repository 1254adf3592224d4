import GridOps.Decimal.Binary

/-!
Writing a floating point number with the fewest digits that read back as it.

On the grid of the multiples of a power of ten, the neighbours of a number are the first to read
back.  So the coarsest grid with a neighbour that does gives the fewest digits, and the nearer of
two neighbours gives the best of these.
-/
namespace GridOps
namespace Decimal

/-- How decimals are laid out: those below `10 ^ largest`, and from `10 ^ smallest` on, are written
without an exponent. -/
structure Layout where
  smallest : Int
  largest : Int
deriving DecidableEq, Repr

/-- Quarters of the last place of `x`, in the unit in which `grid` counts multiples of `10 ^ k`. -/
def quarter (x : Binary) (k : Int) : Nat := Nat.pow 10 (-k).toNat <<< (x.exponent - 2).toNat

/-- The distance of two multiples of `10 ^ k`, in the same unit. -/
def grid (x : Binary) (k : Int) : Nat := Nat.pow 10 k.toNat <<< (2 - x.exponent).toNat

/-- Whether the number below `x` is only half as far away as the number above it. -/
def narrowBelow (x : Binary) : Bool := x.mantissa == Binary.full && x.exponent != Binary.lowest

/-- Whether `n * 10 ^ k` is read as `x`; the middle between two numbers is read as the even one. -/
def readsBack (x : Binary) (n : Nat) (k : Int) : Bool :=
  let least := (4 * x.mantissa - if narrowBelow x then 1 else 2) * quarter x k
  let greatest := (4 * x.mantissa + 2) * quarter x k
  let point := n * grid x k
  if x.mantissa % 2 = 0 then least ≤ point && point ≤ greatest
  else least < point && point < greatest

/-- The nearer neighbour of `x` on the grid of `10 ^ k` among those that read back. -/
def neighbour? (x : Binary) (k : Int) : Option Nat :=
  let value := 4 * x.mantissa * quarter x k
  let below := value / grid x k
  match readsBack x below k, readsBack x (below + 1) k with
  | true, true => some (Binary.roundDiv value (grid x k))
  | true, false => some below
  | false, true => some (below + 1)
  | false, false => none

def searchFrom (x : Binary) : (fuel : Nat) → Int → Nat × Int
  | 0, k => (4 * x.mantissa * quarter x k / grid x k, k)
  | fuel + 1, k =>
    match neighbour? x k with
    | some n => (n, k)
    | none => searchFrom x fuel (k - 1)

/-- The digits of `x`, as a number and the power of ten that it counts.  No number is above the
first grid, and 17 digits always suffice. -/
def shortest (x : Binary) : Nat × Int := searchFrom x 660 310

def Layout.digits (l : Layout) (n : Nat) (k : Int) : List Char :=
  let ds := Nat.toDigits 10 n
  let magnitude : Int := ds.length + k
  let zeros (count : Int) := List.replicate count.toNat '0'
  if magnitude ≤ l.smallest ∨ l.largest < magnitude then
    ds.take 1 ++ (if ds.length = 1 then [] else '.' :: ds.drop 1) ++
      'e' :: (toString (magnitude - 1)).toList
  else if 0 ≤ k then ds ++ zeros k ++ ['.', '0']
  else if 0 < magnitude then ds.take magnitude.toNat ++ '.' :: ds.drop magnitude.toNat
  else ['0', '.'] ++ zeros (-magnitude) ++ ds

def Layout.text (l : Layout) (x : Float) : String :=
  let bits := x.toBits.toNat
  let unsigned := bits % Binary.signBit
  let sign := if bits < Binary.signBit then "" else "-"
  if Binary.infinityBits < unsigned then "NaN"
  else if unsigned = Binary.infinityBits then sign ++ "inf"
  else if unsigned = 0 then sign ++ "0.0"
  else
    let (n, k) := shortest (Binary.ofBits unsigned)
    sign ++ String.ofList (l.digits n k)

end Decimal
end GridOps
