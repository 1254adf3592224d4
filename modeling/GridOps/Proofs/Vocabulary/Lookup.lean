import GridOps.Proofs.Vocabulary.Format

/-!
Looking up keys in a vocabulary.

A vocabulary packs several numbers into one word: a coefficient is `a * 2 ^ 16 + b * 2 ^ 9 + size`,
and an entry of the table is `key * 2 ^ 16 + id`.  `Places` states in these numbers which slot a key
has.  The bins of a vocabulary that was read lie within its table, so no slot that a look-up
computes wraps or lies outside (`Places.lt`), and the look-up finds exactly the entry of its key in
the key's slot (`lookup_eq_some_iff`).
-/

namespace GridOps

namespace Vocabulary

/-- The number below `size` of a key under the hash function with parameters `a` and `b`.  The
product and the sum are words. -/
def hashNumber (a b key size : Nat) : Nat := (a * key + b) % 2 ^ 64 % 281474976710677 % size

theorem hashNumber_lt (a b key : Nat) {size : Nat} (h : 0 < size) :
    hashNumber a b key size < size :=
  Nat.mod_lt _ h

theorem toNat_universalHash (a b key size : UInt64) :
    (universalHash a b key size).toNat = hashNumber a.toNat b.toNat key.toNat size.toNat := by
  have hprime : hashPrime.toNat = 281474976710677 := rfl
  unfold universalHash hashNumber
  rw [UInt64.toNat_mod, UInt64.toNat_mod, UInt64.toNat_add, UInt64.toNat_mul, hprime,
    Nat.mod_add_mod]

/-! ## Packed words -/

theorem toNat_shiftRight_16 (n : UInt64) : (n >>> 16).toNat = n.toNat / 2 ^ 16 := by
  rw [UInt64.toNat_shiftRight]
  exact Nat.shiftRight_eq_div_pow _ _

end Vocabulary

namespace VocabularyBin

/-- The coefficient of the bin packs the parameters of its hash function and its size. -/
structure Packs (bin : VocabularyBin) (a b size : Nat) : Prop where
  coefficient : bin.coefficient.toNat = a * 2 ^ 16 + b * 2 ^ 9 + size
  parameter : b < 2 ^ 7
  size : size < 2 ^ 9

theorem toNat_size (bin : VocabularyBin) : bin.size.toNat = bin.coefficient.toNat % 2 ^ 9 := by
  rw [size, UInt64.toNat_and]
  exact Nat.and_two_pow_sub_one_eq_mod _ 9

theorem toNat_innerB (bin : VocabularyBin) :
    bin.innerB.toNat = bin.coefficient.toNat / 2 ^ 9 % 2 ^ 7 := by
  rw [innerB, UInt64.toNat_and, UInt64.toNat_shiftRight]
  exact (Nat.and_two_pow_sub_one_eq_mod _ 7).trans
    (congrArg (· % 2 ^ 7) (Nat.shiftRight_eq_div_pow _ _))

/-- Every coefficient packs the numbers that the bin takes out of it, and no others. -/
theorem packs_iff {bin : VocabularyBin} {a b size : Nat} :
    bin.Packs a b size ↔
      bin.innerA.toNat = a ∧ bin.innerB.toNat = b ∧ bin.size.toNat = size := by
  rw [toNat_size, toNat_innerB, innerA, Vocabulary.toNat_shiftRight_16]
  constructor
  · rintro ⟨hcoefficient, hparameter, hsize⟩
    rw [hcoefficient]
    omega
  · rintro ⟨rfl, rfl, rfl⟩
    exact ⟨by omega, by omega, by omega⟩

/-- The slot that the bin has for a key.  A bin of size zero has no slots. -/
def Places (bin : VocabularyBin) (key slot : Nat) : Prop :=
  ∃ a b size, bin.Packs a b size ∧ 0 < size ∧
    slot = bin.offset.toNat + Vocabulary.hashNumber a b key size

theorem places_iff {bin : VocabularyBin} {key slot : Nat} :
    bin.Places key slot ↔ 0 < bin.size.toNat ∧ slot = bin.offset.toNat +
      Vocabulary.hashNumber bin.innerA.toNat bin.innerB.toNat key bin.size.toNat := by
  constructor
  · rintro ⟨a, b, size, hpacks, hsize, hslot⟩
    obtain ⟨rfl, rfl, rfl⟩ := packs_iff.mp hpacks
    exact ⟨hsize, hslot⟩
  · exact fun ⟨hsize, hslot⟩ => ⟨_, _, _, packs_iff.mpr ⟨rfl, rfl, rfl⟩, hsize, hslot⟩

end VocabularyBin

namespace Vocabulary

/-! ## Slots -/

/-- The bin that the outer hash function chooses for a key. -/
def binFor? (v : Vocabulary) (key : Nat) : Option VocabularyBin :=
  v.bins[hashNumber v.outerA.toNat v.outerB.toNat key v.bins.size]?

/-- The slot of a key is the one that its bin has for it. -/
def Places (v : Vocabulary) (key slot : Nat) : Prop :=
  ∃ bin, v.binFor? key = some bin ∧ bin.Places key slot

variable {v : Vocabulary}

theorem WellFormed.binFor?_isSome (hv : v.WellFormed) (key : Nat) :
    ∃ bin, v.binFor? key = some bin :=
  ⟨_, Array.getElem?_eq_getElem (hashNumber_lt _ _ _ hv.bins.1)⟩

theorem WellFormed.bins_getElem? (hv : v.WellFormed) (key : UInt64) :
    v.bins[v.binOf key]? = v.binFor? key.toNat := by
  have hbins : (UInt64.ofNat v.bins.size).toNat = v.bins.size :=
    UInt64.toNat_ofNat_of_lt' (Nat.lt_of_le_of_lt hv.bins.2 (by decide))
  rw [binFor?, binOf, toNat_universalHash, hbins]

/-- Slots lie within the table. -/
theorem Places.lt (hv : v.WellFormed) {key slot : Nat} (h : v.Places key slot) :
    slot < v.table.size := by
  obtain ⟨bin, hbin, hplaces⟩ := h
  obtain ⟨hsize, rfl⟩ := VocabularyBin.places_iff.mp hplaces
  have hinside := hv.inside bin (Array.mem_of_getElem? hbin)
  have hhash := hashNumber_lt bin.innerA.toNat bin.innerB.toNat key hsize
  omega

/-- The sum that gives a slot does not wrap. -/
theorem toNat_slot (hv : v.WellFormed) {bin : VocabularyBin} (hbin : bin ∈ v.bins) (key : UInt64)
    (hsize : 0 < bin.size.toNat) :
    (bin.slot key).toNat = bin.offset.toNat +
      hashNumber bin.innerA.toNat bin.innerB.toNat key.toNat bin.size.toNat := by
  have hinside := hv.inside bin hbin
  have htable := hv.table
  have hhash := hashNumber_lt bin.innerA.toNat bin.innerB.toNat key.toNat hsize
  rw [VocabularyBin.slot, UInt64.toNat_add, toNat_universalHash, Nat.mod_eq_of_lt (by omega)]

theorem slotOf?_eq_some_iff (hv : v.WellFormed) {key : UInt64} {slot : Nat} :
    v.slotOf? key = some slot ↔ v.Places key.toNat slot := by
  obtain ⟨bin, hbin⟩ := hv.binFor?_isSome key.toNat
  have hmem : bin ∈ v.bins := Array.mem_of_getElem? hbin
  have hplaces : v.Places key.toNat slot ↔ bin.Places key.toNat slot := by
    simp only [Places, hbin, Option.some.injEq, exists_eq_left']
  have hslot : v.slotOf? key = if bin.size = 0 then none else some (bin.slot key).toNat := by
    rw [slotOf?, hv.bins_getElem?, hbin]
    rfl
  rw [hplaces, VocabularyBin.places_iff, hslot]
  by_cases hsize : bin.size = 0
  · rw [if_pos hsize, hsize]
    simp
  · have hpos : 0 < bin.size.toNat := Nat.pos_of_ne_zero fun h => hsize (UInt64.toNat.inj h)
    rw [if_neg hsize, Option.some.injEq, toNat_slot hv hmem key hpos]
    exact ⟨fun h => ⟨hpos, h.symm⟩, fun h => h.2.symm⟩

/-! ## Entries -/

/-- The table has the entry of the key with the id in the slot. -/
def Holds (v : Vocabulary) (slot key id : Nat) : Prop :=
  ∃ entry, v.table[slot]? = some entry ∧ entry.toNat = key * 2 ^ 16 + id

theorem toNat_entryId (entry : UInt64) :
    (entry &&& 0xFFFF).toUInt32.toNat = entry.toNat % 2 ^ 16 := by
  have hand : (entry &&& 0xFFFF).toNat = entry.toNat % 2 ^ 16 := by
    rw [UInt64.toNat_and]
    exact Nat.and_two_pow_sub_one_eq_mod _ 16
  rw [UInt64.toNat_toUInt32, hand]
  omega

/-- A look-up finds the entry of its key in the slot of its key, and nothing else. -/
theorem lookup_eq_some_iff (hv : v.WellFormed) {key : UInt64} {id : UInt32} :
    v.lookup key = some id ↔
      id.toNat < 2 ^ 16 ∧ ∃ slot, v.Places key.toNat slot ∧ v.Holds slot key.toNat id.toNat := by
  simp only [lookup, Option.bind_eq_bind, Option.bind_eq_some_iff, slotOf?_eq_some_iff hv, Holds]
  constructor
  · rintro ⟨slot, hplaces, entry, hentry, h⟩
    split at h
    · rename_i hkey
      obtain rfl := Option.some.inj h
      rw [toNat_entryId, ← hkey, toNat_shiftRight_16]
      refine ⟨by omega, slot, ?_, entry, hentry, by omega⟩
      rwa [← toNat_shiftRight_16, hkey]
    · cases h
  · rintro ⟨hid, slot, hplaces, entry, hentry, hsum⟩
    have hkey : entry >>> 16 = key := UInt64.toNat.inj (by
      rw [toNat_shiftRight_16]
      omega)
    have hsame : (entry &&& 0xFFFF).toUInt32 = id := UInt32.toNat.inj (by
      rw [toNat_entryId]
      omega)
    exact ⟨slot, hplaces, entry, hentry, by rw [if_pos hkey, hsame]⟩

/-- A key of 48 bits and an id of 16 bits make one entry only. -/
theorem div_of_holds {slot key id : Nat} {entry : UInt64} (h : v.Holds slot key id)
    (hid : id < 2 ^ 16) (hentry : v.table[slot]? = some entry) : entry.toNat / 2 ^ 16 = key := by
  obtain ⟨entry', hentry', hsum⟩ := h
  obtain rfl := Option.some.inj (hentry.symm.trans hentry')
  omega

/-- Every key of a map of ids has its entry in its slot. -/
def Stores (v : Vocabulary) (ids : BitVec 48 → Option UInt16) : Prop :=
  ∀ key id, ids key = some id →
    ∃ slot, v.Places key.toNat slot ∧ v.Holds slot key.toNat id.toNat

/-- A vocabulary that was read answers every key of a map that it stores with the key's id, and no
key whose slot does not name it.  For each key it chooses one of its bins; if the bin has slots, the
slot of the key is one of the table's, and if it has none, the key is not found. -/
theorem lookup_stored {text : List Char} (h : parse text = .ok v) :
    (∀ ids, v.Stores ids → ∀ key id, ids key = some id →
      v.lookup (UInt64.ofNat key.toNat) = some id.toUInt32) ∧
    (∀ key : UInt64, (∀ slot entry, v.Places key.toNat slot → v.table[slot]? = some entry →
      entry.toNat / 2 ^ 16 ≠ key.toNat) → v.lookup key = none) ∧
    ∀ key : UInt64, ∃ bin, v.binFor? key.toNat = some bin ∧
      ((∃ slot, v.slotOf? key = some slot ∧ bin.Places key.toNat slot ∧ slot < v.table.size) ∨
        (bin.size = 0 ∧ v.slotOf? key = none ∧ v.lookup key = none)) := by
  have hv : v.WellFormed := (parse_ok_iff.mp h).1
  refine ⟨fun ids hstores key id hkey => ?_, fun key hother => ?_, fun key => ?_⟩
  · obtain ⟨slot, hplaces, hholds⟩ := hstores key id hkey
    have hword : (UInt64.ofNat key.toNat).toNat = key.toNat :=
      UInt64.toNat_ofNat_of_lt' (Nat.lt_trans key.isLt (by decide))
    rw [lookup_eq_some_iff hv, hword, UInt16.toNat_toUInt32]
    exact ⟨id.toNat_lt, slot, hplaces, hholds⟩
  · refine Option.eq_none_iff_forall_ne_some.mpr fun id hfound => ?_
    obtain ⟨hid, slot, hplaces, hholds⟩ := (lookup_eq_some_iff hv).mp hfound
    have hslot := hplaces.lt hv
    have hentry : v.table[slot]? = some v.table[slot] := Array.getElem?_eq_getElem hslot
    exact hother slot _ hplaces hentry (div_of_holds hholds hid hentry)
  · obtain ⟨bin, hbin⟩ := hv.binFor?_isSome key.toNat
    refine ⟨bin, hbin, ?_⟩
    cases hslot : v.slotOf? key with
    | some slot =>
      have hplaces := (slotOf?_eq_some_iff hv).mp hslot
      have hlt := hplaces.lt hv
      obtain ⟨bin', hbin', hthis⟩ := hplaces
      obtain rfl := Option.some.inj (hbin.symm.trans hbin')
      exact Or.inl ⟨slot, rfl, hthis, hlt⟩
    | none =>
      refine Or.inr ⟨?_, rfl, ?_⟩
      · rw [slotOf?, hv.bins_getElem?, hbin] at hslot
        by_contra hsize
        exact absurd hslot (by simp [hsize])
      · rw [lookup, hslot]
        rfl

/-! Two bins that share two of the four slots; the entry of key 4 stands where key 5 would. -/

def overlapping : Vocabulary :=
  ⟨1, 0, #[⟨65539, 0⟩, ⟨66051, 1⟩], #[393416, 262244, 0, 459052], 1, 2, 3⟩

def overlappingIds (key : BitVec 48) : Option UInt16 :=
  if key = 4 then some 100 else if key = 6 then some 200 else if key = 7 then some 300 else none

theorem lookup_stored_overlapping :
    parse "1 0 2 65539 0 66051 1 4 393416 262244 0 459052 1 2 3".toList = .ok overlapping ∧
      overlapping.Stores overlappingIds ∧ overlapping.lookup 4 = some 100 ∧
      overlapping.lookup 7 = some 300 ∧ overlapping.lookup 5 = none := by
  have hparse : parse "1 0 2 65539 0 66051 1 4 393416 262244 0 459052 1 2 3".toList =
      .ok overlapping := by decide +kernel
  have hv : overlapping.WellFormed := (parse_ok_iff.mp hparse).1
  have hplaces : ∀ key slot, overlapping.slotOf? key = some slot →
      overlapping.Places key.toNat slot := fun _ _ => (slotOf?_eq_some_iff hv).mp
  obtain ⟨hstored, hmissing, -⟩ := lookup_stored hparse
  have hstores : overlapping.Stores overlappingIds := by
    intro key id hkey
    unfold overlappingIds at hkey
    split_ifs at hkey with h4 h6 h7
    · cases h4
      cases hkey
      exact ⟨1, hplaces 4 1 (by decide +kernel), _, rfl, by decide⟩
    · cases h6
      cases hkey
      exact ⟨0, hplaces 6 0 (by decide +kernel), _, rfl, by decide⟩
    · cases h7
      cases hkey
      exact ⟨3, hplaces 7 3 (by decide +kernel), _, rfl, by decide⟩
  refine ⟨hparse, hstores, hstored _ hstores 4 100 (by decide), hstored _ hstores 7 300 (by decide),
    hmissing 5 fun slot entry hslot hentry => ?_⟩
  have hone : overlapping.slotOf? 5 = some 1 := by decide +kernel
  obtain rfl := Option.some.inj (hone.symm.trans ((slotOf?_eq_some_iff hv).mpr hslot))
  cases hentry
  decide

end Vocabulary
end GridOps
