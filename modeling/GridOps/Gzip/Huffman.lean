/-!
Canonical Huffman codes, given by the lengths of the codes of the symbols 0, 1, ….

Codes of one length are consecutive numbers in the order of their symbols, and the first code of
a length follows the last one of the lengths below it.
-/
namespace GridOps

/-- A code; `counts` holds how many codes have length 1, 2, …, and `symbols` the symbols in the
order of their codes. -/
structure Huffman where
  counts : List Nat
  symbols : Array Nat
deriving Repr

namespace Huffman

/-- The longest code that the format admits. -/
def maxLength : Nat := 15

def longest (lengths : List Nat) : Nat := lengths.foldl max 0

def symbolsOf (lengths : List Nat) (length : Nat) : List Nat :=
  lengths.zipIdx.filterMap fun (l, symbol) => if l = length then some symbol else none

/-- How many of the words of `maxLength` bits start with a code. -/
def covered (lengths : List Nat) : Nat :=
  lengths.foldl (fun sum l => if l = 0 then sum else sum + 1 <<< (maxLength - l)) 0

/--
The code with these lengths.  It may not have more codes than fit, nor fewer, except that there
may be none, and that a `sparse` code may be a single one of length 1.
-/
def ofLengths? (sparse : Bool) (lengths : List Nat) : Option Huffman :=
  let most := longest lengths
  let words := covered lengths
  if 1 <<< maxLength < words then none
  else if words < 1 <<< maxLength ∧ most ≠ 0 ∧ ¬ (sparse = true ∧ most = 1) then none
  else
    let groups := (List.range (max 1 most)).map fun l => symbolsOf lengths (l + 1)
    some ⟨groups.map List.length, groups.flatten.toArray⟩

end Huffman
end GridOps
