import GridOps.Proofs.Text.Lowercase
import GridOps.Proofs.Text.Words
import GridOps.Text.Normalize

/-!
What normalization leaves of a text.

A character becomes nothing, a blank, or one clean character, which is set off with blanks if it is
a word of its own (`normalizeChar_cases`).  This decides what the words of a normalized text are
(`appendTo_outcome`).  A clean character stays as it is, also in lower case and without its accent,
so normalizing a second time changes blanks only (`words_normalize`).
-/

namespace GridOps
namespace Normalizer

open CharClass

/-! ## Characters -/

/-- Neither white space nor a control character, and not in the place of an ill-formed part. -/
structure Kept (c : Char) : Prop where
  solid : isWhitespace c = false
  printed : isControl c = false
  wellFormed : c ≠ Utf8.replacement

theorem kept_of_free {c : Char} (h : Lowercase.Free c.toNat) : Kept c := by
  have hgaps := h.2
  simp only [Lowercase.gaps, List.forall_mem_cons] at hgaps
  obtain ⟨hlow, hdelete, -, hogham, hgeneral, hideographic, -, hreplacement, -⟩ := hgaps
  constructor
  case solid =>
    simp only [isWhitespace, within, Bool.or_eq_false_iff, Bool.and_eq_false_iff,
      beq_eq_false_iff_ne, decide_eq_false_iff_not]
    omega
  case printed =>
    simp only [isControl, within, Bool.or_eq_false_iff, Bool.and_eq_false_iff,
      decide_eq_false_iff_not]
    omega
  case wellFormed =>
    rintro rfl
    exact hreplacement (by decide)

theorem Kept.ne_nul {c : Char} (h : Kept c) : c ≠ '\x00' := by
  rintro rfl
  exact absurd h.printed (by decide)

theorem Kept.lower {c l : Char} (h : Kept c) (hl : l ∈ Lowercase.lower c) : Kept l := by
  rcases Lowercase.eq_or_free_of_mem_lower hl with rfl | hfree
  · exact h
  · exact kept_of_free hfree

/-- A character that normalization puts out, and keeps as it is. -/
structure Clean (n : Normalizer) (c : Char) : Prop extends Kept c where
  bare : n.lowercase = true → isCombiningMark c = false
  lower : n.lowercase = true → Lowercase.lower c = [c]
  base : n.lowercase = true → stripAccent c = c

/-- The base letters are small letters that are the base of no other. -/
theorem accented_bases : (accented.all fun entry => !isCombiningMark entry.1 &&
    Lowercase.lower entry.1 == [entry.1] && stripAccent entry.1 == entry.1 &&
    !isWhitespace entry.1 && !isControl entry.1 && entry.1 != Utf8.replacement) = true := by
  decide +kernel

theorem stripAccent_cases (c : Char) :
    stripAccent c = c ∨ ∃ entry ∈ accented, stripAccent c = entry.1 := by
  unfold stripAccent
  cases hfind : accented.find? fun entry => entry.2.contains c with
  | none => exact .inl rfl
  | some entry => exact .inr ⟨entry, List.mem_of_find?_eq_some hfind, rfl⟩

theorem clean_stripAccent (n : Normalizer) {c : Char} (h : Kept c)
    (hbare : isCombiningMark c = false) (hlower : Lowercase.lower c = [c]) :
    n.Clean (stripAccent c) := by
  rcases stripAccent_cases c with hsame | ⟨entry, hentry, hbase⟩
  · rw [hsame]
    exact ⟨h, fun _ => hbare, fun _ => hlower, fun _ => hsame⟩
  · have hbases := List.all_eq_true.mp accented_bases entry hentry
    simp only [Bool.and_eq_true, Bool.not_eq_true', beq_iff_eq, bne_iff_ne, and_assoc] at hbases
    obtain ⟨hbare, hlower, hstrip, hsolid, hprinted, hwellFormed⟩ := hbases
    rw [hbase]
    exact ⟨⟨hsolid, hprinted, hwellFormed⟩, fun _ => hbare, fun _ => hlower, fun _ => hstrip⟩

/-- A lower case has at most one character that is no combining mark. -/
theorem letters_cases (c : Char) :
    ((Lowercase.lower c).filter fun l => !isCombiningMark l) = [] ∨
      ∃ l ∈ Lowercase.lower c, isCombiningMark l = false ∧
        ((Lowercase.lower c).filter fun l => !isCombiningMark l) = [l] := by
  unfold Lowercase.lower
  split
  · exact .inr ⟨'i', List.mem_cons_self, by decide, by decide⟩
  · cases hbare : isCombiningMark (Char.ofNat (Lowercase.lowerCode c.toNat)) with
    | true => exact .inl (List.filter_cons_of_neg (by simp [hbare]))
    | false => exact .inr ⟨_, List.mem_cons_self, hbare, List.filter_cons_of_pos (by simp [hbare])⟩

/-- A character becomes nothing, a blank, or one clean character. -/
theorem normalizeChar_cases (n : Normalizer) (c : Char) :
    n.normalizeChar c = [] ∨ n.normalizeChar c = [' '] ∨
      ∃ d, n.Clean d ∧ n.normalizeChar c = spaced d := by
  unfold normalizeChar
  split
  · exact .inl rfl
  rename_i hmarker
  split
  · exact .inr (.inl rfl)
  rename_i hsolid
  split
  · exact .inl rfl
  rename_i hprinted
  have hkept : Kept c := ⟨Bool.eq_false_iff.mpr hsolid, Bool.eq_false_iff.mpr hprinted,
    fun h => hmarker (.inr h)⟩
  split
  · rcases letters_cases c with hnone | ⟨l, hl, hbare, hletters⟩
    · rw [hnone]
      exact .inl rfl
    · rw [hletters, List.flatMap_singleton]
      exact .inr (.inr ⟨_,
        clean_stripAccent n (hkept.lower hl) hbare (Lowercase.lower_of_mem hl), rfl⟩)
  · rename_i hcase
    exact .inr (.inr ⟨c, ⟨hkept, fun h => absurd h hcase, fun h => absurd h hcase,
      fun h => absurd h hcase⟩, rfl⟩)

/-- A clean character stays as it is. -/
theorem Clean.normalizeChar {n : Normalizer} {c : Char} (h : n.Clean c) :
    n.normalizeChar c = spaced c := by
  have hsolid : ¬isWhitespace c = true := by simp [h.solid]
  have hprinted : ¬isControl c = true := by simp [h.printed]
  rw [Normalizer.normalizeChar, if_neg (not_or.mpr ⟨h.toKept.ne_nul, h.wellFormed⟩), if_neg hsolid,
    if_neg hprinted]
  split
  · rename_i hcase
    rw [h.lower hcase, List.filter_cons_of_pos (by simp [h.bare hcase]), List.filter_nil,
      List.flatMap_singleton, h.base hcase]
  · rfl

theorem spaced_of_solitary {c : Char} (h : isSolitary c = true) : spaced c = [' ', c, ' '] :=
  if_pos h

theorem spaced_of_not_solitary {c : Char} (h : isSolitary c = false) : spaced c = [c] :=
  if_neg (by simp [h])

/-! ## Texts -/

theorem normalize_cons (n : Normalizer) (c : Char) (text : List Char) :
    n.normalize (c :: text) = n.normalizeChar c ++ n.normalize text := List.flatMap_cons

theorem normalize_append (n : Normalizer) (text text' : List Char) :
    n.normalize (text ++ text') = n.normalize text ++ n.normalize text' := List.flatMap_append

theorem toList_foldl_push (cs : List Char) (output : String) :
    (cs.foldl String.push output).toList = output.toList ++ cs := by
  induction cs generalizing output with
  | nil => simp
  | cons c cs ih => simp [ih]

/-- The normalized text comes behind what was there. -/
theorem toList_appendTo (n : Normalizer) (text : List Char) (output : String) :
    (n.appendTo text output).toList = output.toList ++ n.normalize text := by
  induction text generalizing output with
  | nil => simp [appendTo, normalize]
  | cons c text ih =>
    show (n.appendTo text ((n.normalizeChar c).foldl String.push output)).toList = _
    rw [ih, toList_foldl_push, normalize_cons, List.append_assoc]

/-! ## Words -/

/-- A word of a normalized text: one character that is a word of its own, or characters that are
not, and all of them clean. -/
structure Whole (n : Normalizer) (word : List Char) : Prop where
  clean : ∀ c ∈ word, n.Clean c
  shape : (∃ c, word = [c] ∧ isSolitary c = true) ∨
    (word ≠ [] ∧ ∀ c ∈ word, isSolitary c = false)

theorem whole_of_mem_read {n : Normalizer} {read word : List Char}
    (hread : ∀ c ∈ read, n.Clean c ∧ isSolitary c = false) (hword : word ∈ wordsFrom read []) :
    n.Whole word := by
  rw [wordsFrom] at hword
  split at hword
  · cases hword
  · rename_i hne
    rw [List.mem_singleton.mp hword]
    exact ⟨fun c hc => (hread c (List.mem_reverse.mp hc)).1, .inr ⟨by simpa using hne,
      fun c hc => (hread c (List.mem_reverse.mp hc)).2⟩⟩

/-- The invariant of reading a normalized text: what was read of a word are clean characters that
are no words of their own. -/
theorem whole_of_mem_wordsFrom {n : Normalizer} {text read word : List Char}
    (hread : ∀ c ∈ read, n.Clean c ∧ isSolitary c = false)
    (hword : word ∈ wordsFrom read (n.normalize text)) : n.Whole word := by
  induction text generalizing read with
  | nil => exact whole_of_mem_read hread hword
  | cons c text ih =>
    rw [normalize_cons] at hword
    rcases n.normalizeChar_cases c with hnone | hblank | ⟨d, hclean, hd⟩
    · rw [hnone] at hword
      exact ih hread hword
    · rw [hblank, List.singleton_append, wordsFrom_blank (by decide), List.mem_append] at hword
      rcases hword with hword | hword
      · exact whole_of_mem_read hread hword
      · exact ih (List.forall_mem_nil _) hword
    · rw [hd] at hword
      cases hsolitary : isSolitary d with
      | true =>
        rw [spaced_of_solitary hsolitary, wordsFrom_set_off hclean.solid, List.mem_append,
          List.mem_cons] at hword
        rcases hword with hword | rfl | hword
        · exact whole_of_mem_read hread hword
        · exact ⟨List.forall_mem_singleton.mpr hclean, .inl ⟨d, rfl, hsolitary⟩⟩
        · exact ih (List.forall_mem_nil _) hword
      | false =>
        rw [spaced_of_not_solitary hsolitary, wordsFrom_solid
          (List.forall_mem_singleton.mpr hclean.solid)] at hword
        exact ih (List.forall_mem_cons.mpr ⟨⟨hclean, hsolitary⟩, hread⟩) hword

/-- The number of characters that are no blanks. -/
def inked (text : List Char) : Nat := text.countP (· ≠ ' ')

/-- A blank is white space. -/
theorem countP_solid_le (text : List Char) :
    (text.countP fun c => !isWhitespace c) ≤ inked text := by
  refine List.countP_mono_left fun c _ hsolid => decide_eq_true fun hblank => ?_
  rw [hblank] at hsolid
  exact absurd hsolid (by decide)

theorem inked_normalizeChar_le (n : Normalizer) (c : Char) : inked (n.normalizeChar c) ≤ 1 := by
  rcases n.normalizeChar_cases c with hnone | hblank | ⟨d, -, hd⟩
  · rw [hnone]
    exact Nat.zero_le 1
  · rw [hblank]
    exact Nat.zero_le 1
  · have hone : inked [d] ≤ 1 := List.countP_le_length
    rw [hd]
    cases hsolitary : isSolitary d with
    | true =>
      rw [spaced_of_solitary hsolitary]
      exact hone
    | false =>
      rw [spaced_of_not_solitary hsolitary]
      exact hone

theorem inked_normalize_le (n : Normalizer) (text : List Char) :
    inked (n.normalize text) ≤ text.length := by
  induction text with
  | nil => exact Nat.le_refl 0
  | cons c text ih =>
    have hfirst := n.inked_normalizeChar_le c
    rw [normalize_cons, inked, List.countP_append, List.length_cons]
    unfold inked at hfirst ih
    omega

/-- Behind an empty text, normalization puts words that are each a single punctuation mark or
ideograph, or characters none of which is one, and that have no control character, no mark of an
ill-formed part and, in lower case, no combining mark.  It has no more characters besides blanks
than the text.  Behind any other text it puts the same. -/
theorem appendTo_outcome (n : Normalizer) (text : List Char) :
    (∀ word ∈ CharClass.words (n.appendTo text "").toList,
      ((∃ c, word = [c] ∧ (isPunctuation c = true ∨ isIdeograph c = true)) ∨
        (word ≠ [] ∧ ∀ c ∈ word, isPunctuation c = false ∧ isIdeograph c = false)) ∧
      ∀ c ∈ word, isControl c = false ∧ c ≠ '\x00' ∧ c ≠ Utf8.replacement ∧
        (n.lowercase = true → isCombiningMark c = false)) ∧
    (n.appendTo text "").toList.countP (· ≠ ' ') ≤ text.length ∧
    ∀ output : String, n.appendTo text output = output ++ n.appendTo text "" := by
  have hempty : (n.appendTo text "").toList = n.normalize text := n.toList_appendTo text ""
  rw [hempty]
  refine ⟨fun word hword => ?_, n.inked_normalize_le text, fun output => String.toList_inj.mp ?_⟩
  · have hwhole := whole_of_mem_wordsFrom (List.forall_mem_nil _) hword
    refine ⟨?_, fun c hc => ?_⟩
    · simpa only [isSolitary, Bool.or_eq_true, Bool.or_eq_false_iff] using hwhole.shape
    · have hclean := hwhole.clean c hc
      exact ⟨hclean.printed, hclean.toKept.ne_nul, hclean.wellFormed, hclean.bare⟩
  · rw [String.toList_append, hempty, toList_appendTo]

/-- A capital I with a dot, an ellipsis, a line separator, an accented letter, a bell and an
ideograph. -/
def mixedText : List Char := ['\u0130', '…', '\u2028', 'É', '\x07', '中']

theorem appendTo_outcome_mixed :
    CharClass.words (Normalizer.default.appendTo mixedText "").toList =
        [['i'], ['…'], ['e'], ['中']] ∧
      (∀ c ∈ ['e'], isControl c = false ∧ c ≠ '\x00' ∧ c ≠ Utf8.replacement ∧
        (Normalizer.default.lowercase = true → isCombiningMark c = false)) ∧
      (Normalizer.default.appendTo mixedText "").toList.countP (· ≠ ' ') ≤ 6 ∧
      Normalizer.default.appendTo mixedText "x" =
        "x" ++ Normalizer.default.appendTo mixedText "" := by
  have hwords : CharClass.words (Normalizer.default.appendTo mixedText "").toList =
      [['i'], ['…'], ['e'], ['中']] := by decide +kernel
  obtain ⟨hword, hinked, happend⟩ := appendTo_outcome Normalizer.default mixedText
  exact ⟨hwords, (hword ['e'] (by rw [hwords]; decide)).2, hinked, happend "x"⟩

/-! ## Normalizing again -/

/-- Reading goes the same way in both texts, with the same word read so far: the second time there
may be more blanks around a character that is a word of its own. -/
theorem wordsFrom_normalize_normalize (n : Normalizer) (text read : List Char) :
    wordsFrom read (n.normalize (n.normalize text)) = wordsFrom read (n.normalize text) := by
  induction text generalizing read with
  | nil => rfl
  | cons c text ih =>
    rw [normalize_cons, normalize_append]
    rcases n.normalizeChar_cases c with hnone | hblank | ⟨d, hclean, hd⟩
    · rw [hnone]
      exact ih read
    · have hagain : n.normalize [' '] = [' '] := rfl
      rw [hblank, hagain, List.singleton_append, List.singleton_append, wordsFrom_blank (by decide),
        wordsFrom_blank (by decide), ih]
    · rw [hd]
      cases hsolitary : isSolitary d with
      | true =>
        have hagain : n.normalize [' ', d, ' '] = [' '] ++ ([' ', d, ' '] ++ [' ']) := by
          rw [normalize_cons, normalize_cons, hclean.normalizeChar, spaced_of_solitary hsolitary]
          rfl
        rw [spaced_of_solitary hsolitary, hagain, wordsFrom_set_off hclean.solid, List.append_assoc,
          List.singleton_append, wordsFrom_blank (by decide), List.append_assoc,
          wordsFrom_set_off hclean.solid, List.singleton_append, wordsFrom_blank (by decide), ih]
        rfl
      | false =>
        have hagain : n.normalize [d] = [d] := by
          rw [normalize_cons, hclean.normalizeChar, spaced_of_not_solitary hsolitary]
          rfl
        rw [spaced_of_not_solitary hsolitary, hagain,
          wordsFrom_solid (List.forall_mem_singleton.mpr hclean.solid),
          wordsFrom_solid (List.forall_mem_singleton.mpr hclean.solid)]
        exact ih _

/-- A normalized text has the words that it has when it is normalized again. -/
theorem words_normalize (n : Normalizer) (text : List Char) :
    n.words (n.normalize text) = n.words text :=
  n.wordsFrom_normalize_normalize text []

end Normalizer
end GridOps
