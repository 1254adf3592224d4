import GridOps.Proofs.Text.Numeral
import GridOps.Proofs.Text.Words
import GridOps.WordPiece.Error
import Mathlib.Data.List.Forall2

/-!
The format of vocabularies.

A vocabulary has its numbers in a fixed order (`Vocabulary.fields`).  Reading accepts exactly the
texts whose words are numerals of the fields of a well-formed vocabulary, and gives that vocabulary
(`parse_ok_iff`).  Each step of the reader takes the numerals of what it returns: `Takes` relates
the reader before and after a step to these numbers, and the lemmas follow the reader's definition.
-/

namespace GridOps

namespace VocabularyBin

def fields (b : VocabularyBin) : List Nat := [b.coefficient.toNat, b.offset.toNat]

end VocabularyBin

namespace Vocabulary

/-- The numbers of a vocabulary in the order in which they are written. -/
def fields (v : Vocabulary) : List Nat :=
  [v.outerA.toNat, v.outerB.toNat, v.bins.size] ++ v.bins.toList.flatMap VocabularyBin.fields ++
    [v.table.size] ++ v.table.toList.map UInt64.toNat ++
    [v.unknownId.toNat, v.classId.toNat, v.separatorId.toNat]

/-- What a vocabulary that is read from a text keeps to. -/
structure WellFormed (v : Vocabulary) : Prop where
  bins : 1 ≤ v.bins.size ∧ v.bins.size ≤ 2 ^ 32 - 1
  table : v.table.size ≤ 2 ^ 32 - 1
  inside : ∀ b ∈ v.bins, b.offset.toNat + b.size.toNat ≤ v.table.size
  ids : v.unknownId.toNat < 2 ^ 16 ∧ v.classId.toNat < 2 ^ 16 ∧ v.separatorId.toNat < 2 ^ 16

/-- The text shows numerals of the fields in their order. -/
def Renders (v : Vocabulary) (text : List Char) : Prop :=
  ∃ numerals, CharClass.Shows numerals text ∧ List.Forall₂ Numeral.Denotes numerals v.fields

namespace Reader

/-- Between `r` and `r'` stand the numerals of `numbers`, each of which fits into 64 bits. -/
def Takes (r r' : Reader) (numbers : List Nat) : Prop :=
  ∃ words, r.rest = words ++ r'.rest ∧ r'.position = r.position + words.length ∧
    words.map (Numeral.word 64) = numbers.map .ok

theorem ext {r r' : Reader} (hrest : r.rest = r'.rest) (hposition : r.position = r'.position) :
    r = r' := by
  cases r
  cases r'
  congr

section Takes

variable {r r' : Reader} {numbers more : List Nat}

@[simp] theorem takes_nil : Takes r r' [] ↔ r' = r := by
  constructor
  · rintro ⟨words, hrest, hposition, hwords⟩
    obtain rfl := List.map_eq_nil_iff.mp hwords
    exact ext hrest.symm hposition
  · rintro rfl
    exact ⟨[], rfl, rfl, rfl⟩

theorem takes_append :
    Takes r r' (numbers ++ more) ↔ ∃ r₁, Takes r r₁ numbers ∧ Takes r₁ r' more := by
  constructor
  · rintro ⟨words, hrest, hposition, hwords⟩
    rw [List.map_append] at hwords
    obtain ⟨words₁, words₂, rfl, hfirst, hsecond⟩ := List.map_eq_append_iff.mp hwords
    rw [List.length_append, ← Nat.add_assoc] at hposition
    exact ⟨⟨words₂ ++ r'.rest, r.position + words₁.length⟩,
      ⟨words₁, hrest.trans (List.append_assoc ..), rfl, hfirst⟩, ⟨words₂, rfl, hposition, hsecond⟩⟩
  · rintro ⟨r₁, ⟨words₁, hrest₁, hposition₁, hwords₁⟩, ⟨words₂, hrest₂, hposition₂, hwords₂⟩⟩
    refine ⟨words₁ ++ words₂, ?_, ?_, ?_⟩
    · rw [hrest₁, hrest₂, List.append_assoc]
    · rw [hposition₂, hposition₁, List.length_append, Nat.add_assoc]
    · rw [List.map_append, List.map_append, hwords₁, hwords₂]

theorem takes_singleton {n : Nat} : Takes r r' [n] ↔ ∃ word, r.rest = word :: r'.rest ∧
    r'.position = r.position + 1 ∧ Numeral.word 64 word = .ok n := by
  constructor
  · rintro ⟨words, hrest, hposition, hwords⟩
    obtain ⟨word, rfl, hword⟩ := List.map_eq_singleton_iff.mp hwords
    exact ⟨word, hrest, hposition, hword⟩
  · rintro ⟨word, hrest, hposition, hword⟩
    exact ⟨[word], hrest, hposition, congrArg (fun x => [x]) hword⟩

theorem takes_three {a b c : Nat} : Takes r r' [a, b, c] ↔
    ∃ r₁ r₂, Takes r r₁ [a] ∧ Takes r₁ r₂ [b] ∧ Takes r₂ r' [c] := by
  rw [show [a, b, c] = [a] ++ ([b] ++ [c]) from rfl, takes_append]
  simp only [takes_append, exists_and_left]

/-- Only numbers of 64 bits are taken. -/
theorem Takes.lt (h : Takes r r' numbers) : ∀ n ∈ numbers, n < UInt64.size := by
  obtain ⟨words, -, -, hwords⟩ := h
  intro n hn
  have hok : Except.ok n ∈ words.map (Numeral.word 64) := by
    rw [hwords]
    exact List.mem_map_of_mem hn
  obtain ⟨word, -, hword⟩ := List.mem_map.mp hok
  exact (Numeral.word_ok_iff.mp hword).2

end Takes

/-! ## Steps of the reader -/

section Steps

variable {α β : Type} {r r' : Reader} {field : VocabularyField}

theorem bind_ok_iff {m : ReadM α} {f : α → ReadM β} {b : β} :
    (m >>= f) r = .ok (b, r') ↔ ∃ a r₁, m r = .ok (a, r₁) ∧ f a r₁ = .ok (b, r') := by
  show (m r >>= fun p => f p.1 p.2) = _ ↔ _
  cases m r with
  | error e => exact iff_of_false (fun h => by cases h) fun ⟨_, _, h, _⟩ => by cases h
  | ok p =>
    constructor
    · exact fun h => ⟨p.1, p.2, rfl, h⟩
    · rintro ⟨a, r₁, ⟨⟩, h⟩
      exact h

theorem pure_ok_iff {a a' : α} : (pure a : ReadM α) r = .ok (a', r') ↔ a = a' ∧ r = r' := by
  show (Except.ok (a, r) : Except VocabularyError (α × Reader)) = _ ↔ _
  simp

theorem throw_ok_iff {e : VocabularyError} {a : α} :
    (throw e : ReadM α) r = .ok (a, r') ↔ False :=
  iff_of_false (fun h => by cases h) id

theorem lift_ok_iff {x : Except VocabularyError α} {a : α} :
    (liftM x : ReadM α) r = .ok (a, r') ↔ x = .ok a ∧ r' = r := by
  cases x with
  | error e => exact iff_of_false (fun h => by cases h) fun ⟨h, _⟩ => by cases h
  | ok a' =>
    constructor
    · intro h
      cases h
      exact ⟨rfl, rfl⟩
    · rintro ⟨⟨⟩, rfl⟩
      rfl

theorem number_ok_iff {n : Nat} : number field r = .ok (n, r') ↔ Takes r r' [n] := by
  rw [takes_singleton, number]
  cases hrest : r.rest with
  | nil => exact iff_of_false (fun h => by cases h) fun ⟨_, h, _⟩ => by cases h
  | cons word rest =>
    dsimp only
    cases hword : Numeral.word 64 word with
    | error cause =>
      refine iff_of_false (fun h => by cases h) fun ⟨word', h, _, hword'⟩ => ?_
      obtain ⟨rfl, -⟩ := List.cons.inj h
      rw [hword] at hword'
      cases hword'
    | ok m =>
      constructor
      · intro h
        cases h
        exact ⟨word, rfl, rfl, hword⟩
      · rintro ⟨word', h, hposition, hword'⟩
        obtain ⟨rfl, hrest'⟩ := List.cons.inj h
        rw [hword] at hword'
        cases hword'
        have hr : (⟨rest, r.position + 1⟩ : Reader) = r' := ext hrest' hposition.symm
        rw [hr]

theorem length_ok_iff {n : Nat} :
    length field r = .ok (n, r') ↔ Takes r r' [n] ∧ n ≤ 2 ^ 32 - 1 := by
  have hsize : UInt32.size = 2 ^ 32 := rfl
  rw [length, bind_ok_iff]
  constructor
  · rintro ⟨m, r₁, hm, h⟩
    split at h
    · obtain ⟨rfl, rfl⟩ := pure_ok_iff.mp h
      exact ⟨number_ok_iff.mp hm, by omega⟩
    · exact (throw_ok_iff.mp h).elim
  · rintro ⟨htakes, hn⟩
    refine ⟨n, r', number_ok_iff.mpr htakes, ?_⟩
    rw [if_pos (by omega)]
    rfl

theorem tokenId_ok_iff {id : UInt32} :
    tokenId field r = .ok (id, r') ↔ Takes r r' [id.toNat] ∧ id.toNat < 2 ^ 16 := by
  have hsize : UInt16.size = 2 ^ 16 := rfl
  rw [tokenId, bind_ok_iff]
  constructor
  · rintro ⟨n, r₁, hn, h⟩
    split at h
    · rename_i hlt
      obtain ⟨rfl, rfl⟩ := pure_ok_iff.mp h
      rw [UInt32.toNat_ofNat_of_lt' (Nat.lt_trans hlt (by decide))]
      exact ⟨number_ok_iff.mp hn, hlt⟩
    · exact (throw_ok_iff.mp h).elim
  · rintro ⟨htakes, hid⟩
    refine ⟨id.toNat, r', number_ok_iff.mpr htakes, ?_⟩
    rw [if_pos (by omega), UInt32.ofNat_toNat]
    rfl

theorem bin_ok_iff {b : VocabularyBin} : bin r = .ok (b, r') ↔ Takes r r' b.fields := by
  rw [VocabularyBin.fields, ← List.singleton_append, takes_append, bin, bind_ok_iff]
  constructor
  · rintro ⟨coefficient, r₁, hcoefficient, h⟩
    obtain ⟨offset, r₂, hoffset, h⟩ := bind_ok_iff.mp h
    obtain ⟨rfl, rfl⟩ := pure_ok_iff.mp h
    have hcoefficient := number_ok_iff.mp hcoefficient
    have hoffset := number_ok_iff.mp hoffset
    rw [UInt64.toNat_ofNat_of_lt' (hcoefficient.lt _ List.mem_cons_self),
      UInt64.toNat_ofNat_of_lt' (hoffset.lt _ List.mem_cons_self)]
    exact ⟨r₁, hcoefficient, hoffset⟩
  · rintro ⟨r₁, hcoefficient, hoffset⟩
    refine ⟨_, r₁, number_ok_iff.mpr hcoefficient,
      bind_ok_iff.mpr ⟨_, r', number_ok_iff.mpr hoffset, ?_⟩⟩
    rw [UInt64.ofNat_toNat, UInt64.ofNat_toNat]
    rfl

/-- Reading several things takes the numerals of each. -/
theorem times_ok_iff {read : ReadM α} {numbers : α → List Nat}
    (hread : ∀ {r a r'}, read r = .ok (a, r') ↔ Takes r r' (numbers a)) (n : Nat) {as : List α} :
    times read n r = .ok (as, r') ↔ as.length = n ∧ Takes r r' (as.flatMap numbers) := by
  induction n generalizing r as with
  | zero =>
    rw [times, pure_ok_iff]
    constructor
    · rintro ⟨rfl, rfl⟩
      exact ⟨rfl, takes_nil.mpr rfl⟩
    · rintro ⟨hlength, htakes⟩
      obtain rfl := List.eq_nil_of_length_eq_zero hlength
      exact ⟨rfl, (takes_nil.mp htakes).symm⟩
  | succ n ih =>
    rw [times, bind_ok_iff]
    constructor
    · rintro ⟨a, r₁, ha, h⟩
      obtain ⟨rest, r₂, hrest, h⟩ := bind_ok_iff.mp h
      obtain ⟨rfl, rfl⟩ := pure_ok_iff.mp h
      obtain ⟨hlength, hrest⟩ := ih.mp hrest
      refine ⟨congrArg (· + 1) hlength, ?_⟩
      rw [List.flatMap_cons]
      exact takes_append.mpr ⟨r₁, hread.mp ha, hrest⟩
    · rintro ⟨hlength, htakes⟩
      cases as with
      | nil => cases hlength
      | cons a rest =>
        rw [List.flatMap_cons] at htakes
        obtain ⟨r₁, ha, hrest⟩ := takes_append.mp htakes
        exact ⟨a, r₁, hread.mpr ha,
          bind_ok_iff.mpr ⟨rest, r', ih.mpr ⟨Nat.succ.inj hlength, hrest⟩, rfl⟩⟩

/-- The checks cannot wrap: a table has fewer slots than 64 bits can number. -/
theorem checkBins_ok_iff {slots : Nat} (hslots : slots < UInt64.size) (i : Nat)
    {bins : List VocabularyBin} :
    checkBins slots i bins = .ok () ↔ ∀ b ∈ bins, b.offset.toNat + b.size.toNat ≤ slots := by
  induction bins generalizing i with
  | nil => simp [checkBins]
  | cons b rest ih =>
    rw [checkBins, List.forall_mem_cons]
    split
    · exact iff_of_false (fun h => by cases h) fun h => by omega
    split
    · exact iff_of_false (fun h => by cases h) fun h => by omega
    · rw [ih (i + 1)]
      exact (and_iff_right (by omega)).symm

theorem finish_ok_iff {u : Unit} : finish r = .ok (u, r') ↔ r' = r ∧ r.rest = [] := by
  rw [finish]
  cases hrest : r.rest with
  | nil => simp [eq_comm]
  | cons word rest => simp

end Steps

/-- The fields are taken group by group. -/
theorem takes_fields {v : Vocabulary} {r r' : Reader} : Takes r r' v.fields ↔
    ∃ r₁ r₂ r₃ r₄, Takes r r₁ [v.outerA.toNat, v.outerB.toNat, v.bins.size] ∧
      Takes r₁ r₂ (v.bins.toList.flatMap VocabularyBin.fields) ∧ Takes r₂ r₃ [v.table.size] ∧
      Takes r₃ r₄ (v.table.toList.map UInt64.toNat) ∧
      Takes r₄ r' [v.unknownId.toNat, v.classId.toNat, v.separatorId.toNat] := by
  simp only [fields, List.append_assoc, takes_append, exists_and_left]

theorem entries_ok_iff {table : List Nat} {n : Nat} {r r' : Reader} :
    times (number .tableEntry) n r = .ok (table, r') ↔ table.length = n ∧ Takes r r' table := by
  have h : times (number .tableEntry) n r = .ok (table, r') ↔
      table.length = n ∧ Takes r r' (table.flatMap fun entry => [entry]) :=
  times_ok_iff number_ok_iff n
  rwa [List.flatMap_singleton'] at h

/-- The numbers of a table that was read are its entries. -/
theorem toNat_entries {table : List Nat} {r r' : Reader} (h : Takes r r' table) :
    (table.map UInt64.ofNat).toArray.toList.map UInt64.toNat = table := by
  rw [List.toList_toArray, List.map_map]
  exact (List.map_congr_left fun n hn => UInt64.toNat_ofNat_of_lt' (h.lt n hn)).trans
    (List.map_id table)

theorem ofNat_entries (table : Array UInt64) :
    ((table.toList.map UInt64.toNat).map UInt64.ofNat).toArray = table := by
  rw [List.map_map]
  have hid : ∀ n ∈ table.toList, (UInt64.ofNat ∘ UInt64.toNat) n = id n := fun _ _ =>
    UInt64.ofNat_toNat
  rw [List.map_congr_left hid, List.map_id]

/-- The reader reads the well-formed vocabularies from their fields. -/
theorem vocabulary_ok_iff {v : Vocabulary} {r r' : Reader} :
    vocabulary r = .ok (v, r') ↔ v.WellFormed ∧ Takes r r' v.fields ∧ r'.rest = [] := by
  rw [takes_fields]
  constructor
  -- A reader that ended well took one step after the other; each tells what it took.
  · intro h
    obtain ⟨outerA, r₁, houterA, h⟩ := bind_ok_iff.mp h
    obtain ⟨outerB, r₂, houterB, h⟩ := bind_ok_iff.mp h
    obtain ⟨binCount, r₃, hbinCount, h⟩ := bind_ok_iff.mp h
    by_cases hnone : binCount = 0
    · rw [if_pos hnone] at h
      obtain ⟨_, _, h, -⟩ := bind_ok_iff.mp h
      exact (throw_ok_iff.mp h).elim
    rw [if_neg hnone] at h
    obtain ⟨bins, r₄, hbins, h⟩ := bind_ok_iff.mp h
    obtain ⟨tableLength, r₅, htableLength, h⟩ := bind_ok_iff.mp h
    obtain ⟨table, r₆, htable, h⟩ := bind_ok_iff.mp h
    obtain ⟨_, r₇, hcheck, h⟩ := bind_ok_iff.mp h
    obtain ⟨unknownId, r₈, hunknown, h⟩ := bind_ok_iff.mp h
    obtain ⟨classId, r₉, hclass, h⟩ := bind_ok_iff.mp h
    obtain ⟨separatorId, r₁₀, hseparator, h⟩ := bind_ok_iff.mp h
    obtain ⟨_, r₁₁, hfinish, h⟩ := bind_ok_iff.mp h
    obtain ⟨rfl, rfl⟩ := pure_ok_iff.mp h
    obtain ⟨hinside, rfl⟩ := lift_ok_iff.mp hcheck
    obtain ⟨rfl, hend⟩ := finish_ok_iff.mp hfinish
    rw [number_ok_iff] at houterA houterB
    rw [length_ok_iff] at hbinCount htableLength
    rw [tokenId_ok_iff] at hunknown hclass hseparator
    obtain ⟨rfl, htaken⟩ := (times_ok_iff bin_ok_iff binCount).mp hbins
    obtain ⟨rfl, hentries⟩ := entries_ok_iff.mp htable
    have hsize : (table.map UInt64.ofNat).toArray.size = table.length := by simp
    have hslots : table.length < UInt64.size := Nat.lt_of_le_of_lt htableLength.2 (by decide)
    refine ⟨⟨⟨Nat.pos_of_ne_zero hnone, hbinCount.2⟩, hsize ▸ htableLength.2, fun b hb => ?_,
      hunknown.2, hclass.2, hseparator.2⟩, ⟨r₃, r₄, r₅, r₇, ?_, htaken, ?_, ?_, ?_⟩, hend⟩
    · rw [hsize]
      exact (checkBins_ok_iff hslots 0).mp hinside b (by simpa using hb)
    · rw [UInt64.toNat_ofNat_of_lt' (houterA.lt _ List.mem_cons_self),
        UInt64.toNat_ofNat_of_lt' (houterB.lt _ List.mem_cons_self)]
      exact takes_three.mpr ⟨r₁, r₂, houterA, houterB, hbinCount.1⟩
    · rw [hsize]
      exact htableLength.1
    · rw [toNat_entries hentries]
      exact hentries
    · exact takes_three.mpr ⟨r₈, r₉, hunknown.1, hclass.1, hseparator.1⟩
  -- The other way, the numerals of each group are there for the steps that read them.
  · rintro ⟨hv, ⟨r₃, r₄, r₅, r₆, hhead, hbins, htableLength, htable, hids⟩, hend⟩
    obtain ⟨r₁, r₂, houterA, houterB, hbinCount⟩ := takes_three.mp hhead
    obtain ⟨r₇, r₈, hunknown, hclass, hseparator⟩ := takes_three.mp hids
    have hnone : v.bins.size ≠ 0 := Nat.ne_of_gt hv.bins.1
    have hslots : v.table.size < UInt64.size := Nat.lt_of_le_of_lt hv.table (by decide)
    have hcheck : checkBins v.table.size 0 v.bins.toList = .ok () :=
      (checkBins_ok_iff hslots 0).mpr fun b hb => hv.inside b (by simpa using hb)
    refine bind_ok_iff.mpr ⟨_, r₁, number_ok_iff.mpr houterA,
      bind_ok_iff.mpr ⟨_, r₂, number_ok_iff.mpr houterB,
      bind_ok_iff.mpr ⟨_, r₃, length_ok_iff.mpr ⟨hbinCount, hv.bins.2⟩, ?_⟩⟩⟩
    rw [if_neg hnone]
    refine bind_ok_iff.mpr ⟨_, r₄, (times_ok_iff bin_ok_iff _).mpr ⟨Array.length_toList, hbins⟩,
      bind_ok_iff.mpr ⟨_, r₅, length_ok_iff.mpr ⟨htableLength, hv.table⟩,
      bind_ok_iff.mpr ⟨_, r₆, entries_ok_iff.mpr ⟨by simp, htable⟩,
      bind_ok_iff.mpr ⟨(), r₆, lift_ok_iff.mpr ⟨hcheck, rfl⟩, ?_⟩⟩⟩⟩
    refine bind_ok_iff.mpr ⟨_, r₇, tokenId_ok_iff.mpr ⟨hunknown, hv.ids.1⟩,
      bind_ok_iff.mpr ⟨_, r₈, tokenId_ok_iff.mpr ⟨hclass, hv.ids.2.1⟩,
      bind_ok_iff.mpr ⟨_, r', tokenId_ok_iff.mpr ⟨hseparator, hv.ids.2.2⟩,
      bind_ok_iff.mpr ⟨(), r', finish_ok_iff.mpr ⟨rfl, hend⟩, pure_ok_iff.mpr ⟨?_, rfl⟩⟩⟩⟩⟩
    rw [UInt64.ofNat_toNat, UInt64.ofNat_toNat, ofNat_entries]

end Reader

/-! ## Texts -/

/-- A text renders a vocabulary if its words are numerals of the fields. -/
theorem renders_iff {v : Vocabulary} {text : List Char} :
    v.Renders text ↔ List.Forall₂ Numeral.Denotes (CharClass.words text) v.fields := by
  constructor
  · rintro ⟨numerals, hshows, hnumerals⟩
    rwa [CharClass.words_eq_iff.mpr hshows]
  · exact fun h => ⟨_, CharClass.words_eq_iff.mp rfl, h⟩

/-- The fields of a well-formed vocabulary fit into 64 bits. -/
theorem lt_of_mem_fields {v : Vocabulary} (hv : v.WellFormed) : ∀ n ∈ v.fields, n < 2 ^ 64 := by
  have hword : ∀ n : UInt64, n.toNat < 2 ^ 64 := UInt64.toNat_lt
  have hbins := hv.bins.2
  have htable := hv.table
  obtain ⟨hunknown, hclass, hseparator⟩ := hv.ids
  intro n hn
  simp only [fields, VocabularyBin.fields, List.mem_append, List.mem_flatMap, List.mem_map,
    List.mem_cons, List.not_mem_nil, or_false] at hn
  rcases hn with
    ((((rfl | rfl | rfl) | ⟨b, -, rfl | rfl⟩) | rfl) | ⟨entry, -, rfl⟩) | rfl | rfl | rfl
  all_goals first | exact hword _ | omega

theorem forall₂_denotes_iff {words : List (List Char)} {numbers : List Nat}
    (h : ∀ n ∈ numbers, n < 2 ^ 64) :
    words.map (Numeral.word 64) = numbers.map .ok ↔
      List.Forall₂ Numeral.Denotes words numbers := by
  induction numbers generalizing words with
  | nil => simp
  | cons n rest ih =>
    cases words with
    | nil => simp
    | cons word words =>
      have hn := h n List.mem_cons_self
      rw [List.map_cons, List.map_cons, List.cons.injEq, List.forall₂_cons, Numeral.word_ok_iff,
        and_iff_left hn, ih fun m hm => h m (List.mem_cons_of_mem n hm)]

/-- The whole of a list of words is taken if they are numerals of the numbers. -/
theorem takes_all_iff {words : List (List Char)} {numbers : List Nat}
    (h : ∀ n ∈ numbers, n < 2 ^ 64) :
    (∃ r', Reader.Takes ⟨words, 0⟩ r' numbers ∧ r'.rest = []) ↔
      List.Forall₂ Numeral.Denotes words numbers := by
  rw [← forall₂_denotes_iff h]
  constructor
  · rintro ⟨r', ⟨taken, hrest, -, htaken⟩, hend⟩
    rw [hend, List.append_nil] at hrest
    rw [show words = taken from hrest, htaken]
  · exact fun h => ⟨⟨[], 0 + words.length⟩, ⟨words, (List.append_nil words).symm, rfl, h⟩, rfl⟩

theorem parse_ok_iff {v : Vocabulary} {text : List Char} :
    parse text = .ok v ↔ v.WellFormed ∧ v.Renders text := by
  have hparse : parse text = .ok v ↔
      ∃ r', Reader.vocabulary ⟨CharClass.words text, 0⟩ = .ok (v, r') := by
    unfold parse
    cases Reader.vocabulary ⟨CharClass.words text, 0⟩ with
    | error e => exact iff_of_false (fun h => by cases h) fun ⟨_, h⟩ => by cases h
    | ok p =>
      constructor
      · intro h
        cases h
        exact ⟨p.2, rfl⟩
      · rintro ⟨r', ⟨⟩⟩
        rfl
  rw [hparse, renders_iff]
  simp only [Reader.vocabulary_ok_iff, exists_and_left]
  exact and_congr_right fun hv => takes_all_iff (lt_of_mem_fields hv)

/-- Reading accepts exactly the texts of well-formed vocabularies, and gives the vocabulary that the
text renders.  Any other text is an invalid vocabulary. -/
theorem parse_outcome (text : List Char) :
    (∀ v, parse text = .ok v ↔ v.WellFormed ∧ v.Renders text) ∧
      ((¬∃ v : Vocabulary, v.WellFormed ∧ v.Renders text) →
        ∃ e, parse text = .error e ∧ (TokenizerError.vocabulary e).kind = .invalidVocabulary) := by
  refine ⟨fun v => parse_ok_iff, fun hnone => ?_⟩
  cases hparse : parse text with
  | error e => exact ⟨e, rfl, rfl⟩
  | ok v => exact absurd ⟨v, parse_ok_iff.mp hparse⟩ hnone

/-- One bin that spans one slot, with a sign, a leading zero and a line break. -/
example : ((parse "7 +3 1\n513 0\t01 42 0 1 2".toList).toOption.map fields) =
    some [7, 3, 1, 513, 0, 1, 42, 0, 1, 2] := by decide +kernel

end Vocabulary
end GridOps
