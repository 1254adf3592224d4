import GridOps.Join.Multimap

/-!
Reading the rows of a key one at a time.

A cursor walks the slots as a look-up does and stops behind each row that it yields.
-/
namespace GridOps

/-- The key whose rows are read, the slot that is visited next, and how many slots are left. -/
structure Cursor (K : Type) where
  key : K
  index : Nat
  remaining : Nat
deriving DecidableEq, Repr

namespace Multimap

variable {K S : Type}

/-- The cursor at the start of a key's walk. -/
def cursor (m : Multimap K S) (key : K) : Cursor K :=
  ⟨key, m.home key, m.capacity⟩

/-- The next row under a key equal to `key` among the next `n` slots of the walk, up to a free one,
and the cursor behind it.  Nothing is left to be visited behind a free slot. -/
def nextFrom (m : Multimap K S) (key : K) : (n i : Nat) → Option S × Cursor K
  | 0, i => (none, ⟨key, i, 0⟩)
  | n + 1, i =>
    match m.slots[i]? with
    | some (some (k, row)) =>
      if m.keying.equal k key then (some row, ⟨key, m.after i, n⟩)
      else m.nextFrom key n (m.after i)
    | _ => (none, ⟨key, m.after i, 0⟩)

def next (m : Multimap K S) (c : Cursor K) : Option S × Cursor K :=
  m.nextFrom c.key c.remaining c.index

end Multimap
end GridOps
