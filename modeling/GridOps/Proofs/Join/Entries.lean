import GridOps.Join.Cursor
import GridOps.Proofs.Join.Filling

/-!
The multimap behaves as the list of the entries that it accepted.

`m.accepted es` are the entries that `m` takes up when `es` are inserted one after another, each
judged by what its own insert answers.  A table that was free holds exactly these
(`holds_accepted`), which fixes the answer of the next insert, the length and every look-up
(`insertAll_accepted`).  A look-up read through a cursor ends, also on a table without a free slot
(`yields_find`).
-/

namespace GridOps
namespace Multimap

variable {K S : Type} {m : Multimap K S}

/-! ## Cursors -/

/-- Reading on from a cursor yields these rows, one a call, and then the end. -/
inductive Yields (m : Multimap K S) : Cursor K → List S → Prop
  | ended {c c' : Cursor K} (h : m.next c = (none, c')) (hstay : m.next c' = (none, c')) :
      Yields m c []
  | row {c c' : Cursor K} {row : S} {rest : List S} (h : m.next c = (some row, c'))
      (hrest : Yields m c' rest) : Yields m c (row :: rest)

/-- A walk ends at a free slot, as it would outside the table. -/
theorem Yields.stop {key : K} {n i : Nat}
    (hslot : m.slots[i]? = none ∨ m.slots[i]? = some none) : m.Yields ⟨key, i, n + 1⟩ [] := by
  have hnext : m.next ⟨key, i, n + 1⟩ = (none, ⟨key, m.after i, 0⟩) := by
    rcases hslot with hslot | hslot
    · simp [next, nextFrom, hslot]
    · simp [next, nextFrom, hslot]
  exact .ended hnext rfl

/-- A slot under another key is passed over. -/
theorem Yields.skip {key : K} {n i : Nat} {e : K × S} {rows : List S}
    (hslot : m.slots[i]? = some (some e)) (hother : m.keying.equal e.1 key = false)
    (h : m.Yields ⟨key, m.after i, n⟩ rows) : m.Yields ⟨key, i, n + 1⟩ rows := by
  have hnext : m.next ⟨key, i, n + 1⟩ = m.next ⟨key, m.after i, n⟩ := by
    simp [next, nextFrom, hslot, hother]
  cases h with
  | ended h hstay => exact .ended (hnext.trans h) hstay
  | row h hrest => exact .row (hnext.trans h) hrest

/-- A cursor yields the rows that a look-up collects from where it stands. -/
theorem yields_rowsFrom (m : Multimap K S) (key : K) (n i : Nat) :
    m.Yields ⟨key, i, n⟩ (m.rowsFrom key n i) := by
  induction n generalizing i with
  | zero => exact .ended rfl rfl
  | succ n ih =>
    rw [rowsFrom]
    rcases hslot : m.slots[i]? with _ | _ | e
    · exact .stop (Or.inl hslot)
    · exact .stop (Or.inr hslot)
    · dsimp only
      cases hequal : m.keying.equal e.1 key with
      | true =>
        have hnext : m.next ⟨key, i, n + 1⟩ = (some e.2, ⟨key, m.after i, n⟩) := by
          simp [next, nextFrom, hslot, hequal]
        exact .row hnext (ih (m.after i))
      | false => exact .skip hslot hequal (ih (m.after i))

theorem yields_find (m : Multimap K S) (key : K) : m.Yields (m.cursor key) (m.find key) :=
  m.yields_rowsFrom key m.capacity (m.home key)

/-! ## Accepted entries -/

variable [JoinKey K]

/-- The entries that are taken up of those that are inserted one after another. -/
def accepted (m : Multimap K S) : List (K × S) → List (K × S)
  | [] => []
  | e :: es =>
    match m.insert e.1 e.2 with
    | (m, true) => e :: m.accepted es
    | (m, false) => m.accepted es

variable {es es' : List (K × S)}

/-- What one insert does to a table that holds `es`: it is accepted and adds its entry if there is
room, and else refused and changes nothing. -/
theorem Holds.insert_cases (h : m.Holds es) {key : K} (row : S)
    (hkey : key ≠ JoinKey.reserved K) :
    (es.length < m.capacity ∧ ∃ m', m.insert key row = (m', true) ∧
      m'.Holds (es ++ [(key, row)]) ∧ m'.capacity = m.capacity ∧ m'.keying = m.keying) ∨
    (m.capacity ≤ es.length ∧ m.insert key row = (m, false)) := by
  rcases Nat.lt_or_ge es.length m.capacity with hroom | hfull
  · exact Or.inl ⟨hroom, h.insert row hkey hroom⟩
  · exact Or.inr ⟨hfull, h.insert_full hfull⟩

/-- The accepted entries are the first ones, as many as there is room for. -/
theorem Holds.accepted_eq (h : m.Holds es) (hkeys : ∀ e ∈ es', e.1 ≠ JoinKey.reserved K) :
    m.accepted es' = es'.take (m.capacity - es.length) := by
  induction es' generalizing m es with
  | nil => simp [accepted]
  | cons e es' ih =>
    obtain ⟨hkey, hkeys⟩ := List.forall_mem_cons.mp hkeys
    rw [accepted]
    rcases h.insert_cases e.2 hkey with ⟨hroom, m', hinsert, hm', hcapacity, -⟩ | ⟨hfull, hinsert⟩
    · have hleft : m.capacity - es.length = m.capacity - (es.length + 1) + 1 := by omega
      have hrest := ih hm' hkeys
      rw [hcapacity, List.length_append, List.length_singleton] at hrest
      rw [hinsert, hleft, List.take_succ_cons, ← hrest]
    · have hnone : m.capacity - es.length = 0 := Nat.sub_eq_zero_of_le hfull
      have hrest := ih h hkeys
      rw [hnone, List.take_zero] at hrest ⊢
      rw [hinsert]
      exact hrest

/-- A table holds what it held before and what it accepted since. -/
theorem Holds.holds_accepted (h : m.Holds es) (hkeys : ∀ e ∈ es', e.1 ≠ JoinKey.reserved K) :
    (m.insertAll es').Holds (es ++ m.accepted es') ∧
      (m.insertAll es').capacity = m.capacity ∧ (m.insertAll es').keying = m.keying := by
  rw [h.accepted_eq hkeys]
  exact h.insertAll hkeys

/-- After any inserts into a free table: an insert is accepted as long as fewer entries than slots
were, a refused one changes nothing, the length is the number of accepted entries, and a look-up
finds the rows of those under equal keys in the order of their inserts, which its cursor yields one
by one before it ends. -/
theorem insertAll_accepted {capacity : Nat} {keying : Keying K} (hpos : 0 < capacity)
    (hlaw : keying.Lawful) {inserts : List (K × S)}
    (hkeys : ∀ e ∈ inserts, e.1 ≠ JoinKey.reserved K) {entries : List (K × S)}
    (hm : m = (free capacity keying).insertAll inserts)
    (hentries : entries = (free capacity keying : Multimap K S).accepted inserts) :
    (∀ key row, key ≠ JoinKey.reserved K →
      ((m.insert key row).2 = true ↔ entries.length < capacity) ∧
      ((m.insert key row).2 = false → (m.insert key row).1 = m)) ∧
    m.len = entries.length ∧
    ∀ key, m.find key = (entries.filter fun e => keying.equal e.1 key).map Prod.snd ∧
      m.Yields (m.cursor key) (m.find key) := by
  have hfree : (free capacity keying : Multimap K S).capacity = capacity := Array.size_replicate
  obtain ⟨hholds, hcapacity, hkeying⟩ := (holds_free hpos keying).holds_accepted hkeys
  rw [← hm] at hholds hcapacity hkeying
  rw [← hentries, List.nil_append] at hholds
  rw [hfree] at hcapacity
  change m.keying = keying at hkeying
  refine ⟨fun key row hkey => ?_, hholds.perm.length_eq, fun key => ⟨?_, m.yields_find key⟩⟩
  · rcases hholds.insert_cases row hkey with ⟨hroom, m', hinsert, -⟩ | ⟨hfull, hinsert⟩
    · rw [hcapacity] at hroom
      simp [hinsert, hroom]
    · rw [hcapacity] at hfull
      simp [hinsert, hfull]
  · rw [hholds.find (hkeying ▸ hlaw) key, hkeying]

/-- Key 5 has slot 2 of three, key 8 the same and key 7 slot 1: the walks of 8 and of the second 5
go round the end, and the table is full when 7 comes. -/
def wrappedInserts : List (UInt32 × UInt32) := [(5, 10), (8, 20), (5, 30), (7, 40)]

def wrappedKeying : Keying UInt32 := ⟨Keying.identityHash, Keying.sameKey⟩

def wrappedTable : Multimap UInt32 UInt32 := (free 3 wrappedKeying).insertAll wrappedInserts

theorem insertAll_accepted_wrapped :
    wrappedTable.len = 3 ∧ wrappedTable.find 5 = [10, 30] ∧ wrappedTable.find 7 = [] ∧
      wrappedTable.find (JoinKey.reserved UInt32) = [] ∧
      wrappedTable.Yields (wrappedTable.cursor 5) (wrappedTable.find 5) ∧
      (wrappedTable.insert 8 50).2 ≠ true := by
  have hlaw : wrappedKeying.Lawful := by
    intro a b h
    rw [of_decide_eq_true h]
  have hkeys : ∀ e ∈ wrappedInserts, e.1 ≠ JoinKey.reserved UInt32 :=
    List.forall_iff_forall_mem.mp (by decide)
  have hentries : [(5, 10), (8, 20), (5, 30)] =
      (free 3 wrappedKeying : Multimap UInt32 UInt32).accepted wrappedInserts := by decide
  obtain ⟨hinsert, hlen, hfind⟩ := insertAll_accepted (by decide) hlaw hkeys
    (rfl : wrappedTable = _) hentries
  obtain ⟨htrue, -⟩ := hinsert 8 50 (by decide)
  exact ⟨hlen, (hfind 5).1.trans (by decide), (hfind 7).1.trans (by decide),
    (hfind _).1.trans (by decide), (hfind 5).2, fun h => absurd (htrue.mp h) (by decide)⟩

end Multimap
end GridOps
