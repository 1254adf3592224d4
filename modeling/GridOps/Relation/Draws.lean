/-!
Random words, and what is drawn from them.

A sequence of draws is a function, so that a statement about all outcomes of a generator is a
statement about all sequences.
-/
namespace GridOps

/-- An endless sequence of random words. -/
abbrev Draws := Nat → UInt64

namespace Draws

/-- Spreads the bits of a word over all of it. -/
def scramble (word : UInt64) : UInt64 :=
  let word := (word ^^^ (word >>> 30)) * 0xBF58476D1CE4E5B9
  let word := (word ^^^ (word >>> 27)) * 0x94D049BB133111EB
  word ^^^ (word >>> 31)

def ofSeed (seed : UInt64) : Draws := fun i =>
  scramble (seed + UInt64.ofNat (i + 1) * 0x9E3779B97F4A7C15)

def stream (seed : UInt64) (k : Nat) : Draws := ofSeed (scramble (ofSeed seed k))

def between (draws : Draws) (lo hi i : Nat) : Nat := lo + (draws i).toNat % (hi + 1 - lo)

def percent (draws : Draws) (i : Nat) : Nat := draws.between 1 100 i

/-- Draw `i` as a fraction of one, one itself excluded. -/
def fraction (draws : Draws) (i : Nat) : Float := (draws i >>> 11).toFloat / 9007199254740992

theorem le_between (draws : Draws) (lo hi i : Nat) : lo ≤ draws.between lo hi i :=
  Nat.le_add_right ..

theorem between_le (draws : Draws) {lo hi : Nat} (h : lo ≤ hi) (i : Nat) :
    draws.between lo hi i ≤ hi := by
  have := Nat.mod_lt (draws i).toNat (show hi + 1 - lo > 0 by omega)
  unfold between
  omega

/-- Exchanges each of the places `n … 1` with a drawn place that is not behind it. -/
def shuffleFrom {α : Type} (draws : Draws) : Nat → Array α → Array α
  | 0, xs => xs
  | n + 1, xs => shuffleFrom draws n (xs.swapIfInBounds (n + 1) (draws.between 0 (n + 1) n))

def shuffle {α : Type} (draws : Draws) (xs : Array α) : Array α :=
  shuffleFrom draws (xs.size - 1) xs

/-- The elements in the order of their drawn tags. -/
def sortByTag {α : Type} (draws : Draws) (xs : List α) : List α :=
  ((xs.zipIdx.map fun (x, i) => (draws i, x)).mergeSort fun a b => a.1 ≤ b.1).map (·.2)

end Draws
end GridOps
