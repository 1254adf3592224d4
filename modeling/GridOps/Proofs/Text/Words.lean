import GridOps.Text.CharClass

/-!
The words of a text.

`words_eq_iff` says which texts have given words: those that show the words in order, each up to
white space or the end.
-/

namespace GridOps
namespace CharClass

/-- At least one character, and no white space. -/
structure IsWord (word : List Char) : Prop where
  ne_nil : word ≠ []
  solid : ∀ c ∈ word, isWhitespace c = false

/-- `text` shows `words` in order.  Each word may have white space before it, and after it comes
white space or the end. -/
inductive Shows : List (List Char) → (text : List Char) → Prop
  | blank {gap : List Char} (hgap : ∀ c ∈ gap, isWhitespace c = true) : Shows [] gap
  | word {gap word rest : List Char} {words : List (List Char)}
      (hgap : ∀ c ∈ gap, isWhitespace c = true) (hword : IsWord word)
      (hend : ∀ c ∈ rest.head?, isWhitespace c = true) (hrest : Shows words rest) :
      Shows (word :: words) (gap ++ word ++ rest)

section Scan

variable {read rest : List Char}

theorem wordsFrom_gap {gap : List Char} (h : ∀ c ∈ gap, isWhitespace c = true) :
    wordsFrom [] (gap ++ rest) = wordsFrom [] rest := by
  induction gap with
  | nil => rfl
  | cons c gap ih =>
    rw [List.cons_append, wordsFrom, if_pos (h c List.mem_cons_self), if_pos List.isEmpty_nil]
    exact ih fun c' hc' => h c' (List.mem_cons_of_mem c hc')

theorem wordsFrom_solid {word : List Char} (h : ∀ c ∈ word, isWhitespace c = false) :
    wordsFrom read (word ++ rest) = wordsFrom (word.reverse ++ read) rest := by
  induction word generalizing read with
  | nil => rfl
  | cons c word ih =>
    have hc : ¬isWhitespace c = true := by simp [h c List.mem_cons_self]
    rw [List.cons_append, wordsFrom, if_neg hc, ih fun c' hc' => h c' (List.mem_cons_of_mem c hc')]
    simp

/-- A word that was read ends where white space or the end follows. -/
theorem wordsFrom_end (hread : read ≠ []) (h : ∀ c ∈ rest.head?, isWhitespace c = true) :
    wordsFrom read rest = read.reverse :: wordsFrom [] rest := by
  have hempty : ¬read.isEmpty = true := by simpa using hread
  cases rest with
  | nil => rw [wordsFrom, wordsFrom, if_neg hempty, if_pos List.isEmpty_nil]
  | cons c rest =>
    have hc : isWhitespace c = true := h c rfl
    rw [wordsFrom, wordsFrom, if_pos hc, if_pos hc, if_neg hempty, if_pos List.isEmpty_nil]

/-- White space ends what was read. -/
theorem wordsFrom_blank {c : Char} (hc : isWhitespace c = true) :
    wordsFrom read (c :: rest) = wordsFrom read [] ++ wordsFrom [] rest := by
  have hend : wordsFrom read (c :: rest) =
      if read.isEmpty then wordsFrom [] rest else read.reverse :: wordsFrom [] rest := by
    rw [wordsFrom, if_pos hc]
  rw [hend, wordsFrom]
  split <;> rfl

/-- A character between blanks is a word. -/
theorem wordsFrom_set_off {c : Char} (hc : isWhitespace c = false) :
    wordsFrom read ([' ', c, ' '] ++ rest) = wordsFrom read [] ++ [c] :: wordsFrom [] rest := by
  have hword : wordsFrom [] ([c] ++ ' ' :: rest) = [c] :: wordsFrom [] rest := by
    rw [wordsFrom_solid (List.forall_mem_singleton.mpr hc), wordsFrom_blank (by decide)]
    rfl
  rw [List.cons_append, wordsFrom_blank (by decide)]
  exact congrArg (wordsFrom read [] ++ ·) hword

/-- What is read is the text without its white space. -/
theorem flatten_wordsFrom (read text : List Char) :
    (wordsFrom read text).flatten = read.reverse ++ text.filter fun c => !isWhitespace c := by
  induction text generalizing read with
  | nil => cases read <;> simp [wordsFrom]
  | cons c rest ih =>
    rw [wordsFrom]
    by_cases hc : isWhitespace c
    · rw [if_pos hc, List.filter_cons_of_neg (by simpa using hc)]
      cases read with
      | nil => simpa using ih []
      | cons a read => simpa using ih []
    · rw [if_neg hc, List.filter_cons_of_pos (by simpa using hc), ih]
      simp

end Scan

theorem Shows.gap {words : List (List Char)} {text : List Char} {c : Char} (h : Shows words text)
    (hc : isWhitespace c = true) : Shows words (c :: text) := by
  have hcons : ∀ gap : List Char, (∀ c ∈ gap, isWhitespace c = true) →
      ∀ c' ∈ c :: gap, isWhitespace c' = true := fun gap hgap c' hc' => by
    rcases List.mem_cons.mp hc' with rfl | hc'
    · exact hc
    · exact hgap c' hc'
  cases h with
  | blank hgap => exact .blank (hcons _ hgap)
  | word hgap hword hend hrest => exact .word (hcons _ hgap) hword hend hrest

/-- A word needs no white space before it. -/
theorem Shows.bare {word rest : List Char} {words : List (List Char)} (hword : IsWord word)
    (hend : ∀ c ∈ rest.head?, isWhitespace c = true) (hrest : Shows words rest) :
    Shows (word :: words) (word ++ rest) :=
  @Shows.word [] word rest words (List.forall_mem_nil _) hword hend hrest

theorem Shows.words_eq {ws : List (List Char)} {text : List Char} (h : Shows ws text) :
    words text = ws := by
  induction h with
  | blank hgap =>
    have h : wordsFrom [] (_ ++ []) = wordsFrom [] [] := wordsFrom_gap hgap
    rwa [List.append_nil] at h
  | @word gap word rest ws hgap hword hend hrest ih =>
    have hne : word.reverse ≠ [] := by simpa using hword.ne_nil
    rw [words, List.append_assoc, wordsFrom_gap hgap, wordsFrom_solid hword.solid, List.append_nil,
      wordsFrom_end hne hend, List.reverse_reverse]
    exact congrArg (word :: ·) ih

theorem isWord_reverse {read : List Char} (hne : read ≠ [])
    (h : ∀ c ∈ read, isWhitespace c = false) : IsWord read.reverse :=
  ⟨by simpa using hne, by simpa using h⟩

/-- The invariant of the scan: what was read and what is still to come show the words. -/
theorem shows_wordsFrom (read text : List Char) (h : ∀ c ∈ read, isWhitespace c = false) :
    Shows (wordsFrom read text) (read.reverse ++ text) := by
  induction text generalizing read with
  | nil =>
    by_cases hread : read = []
    · subst hread
      exact .blank (by simp)
    · rw [wordsFrom, if_neg (by simpa using hread)]
      exact .bare (isWord_reverse hread h) (by simp) (.blank (by simp))
  | cons c rest ih =>
    rw [wordsFrom]
    by_cases hc : isWhitespace c
    · have hrest : Shows (wordsFrom [] rest) (c :: rest) := (ih [] (by simp)).gap hc
      rw [if_pos hc]
      by_cases hread : read = []
      · subst hread
        exact hrest
      · rw [if_neg (by simpa using hread)]
        exact .bare (isWord_reverse hread h) (by simpa using hc) hrest
    · have hread : ∀ c' ∈ c :: read, isWhitespace c' = false := by
        simpa [hc] using h
      rw [if_neg hc]
      simpa using ih (c :: read) hread

theorem words_eq_iff {ws : List (List Char)} {text : List Char} :
    words text = ws ↔ Shows ws text := by
  constructor
  · rintro rfl
    exact shows_wordsFrom [] text (by simp)
  · exact Shows.words_eq

/-- The words of a text are its characters without the white space. -/
theorem flatten_words (text : List Char) :
    (words text).flatten = text.filter fun c => !isWhitespace c :=
  flatten_wordsFrom [] text

theorem isWord_of_mem_words {text word : List Char} (h : word ∈ words text) : IsWord word := by
  have hshows : Shows (words text) text := words_eq_iff.mp rfl
  generalize words text = ws at h hshows
  induction hshows with
  | blank => cases h
  | word _ hword _ _ ih =>
    rcases List.mem_cons.mp h with rfl | h
    · exact hword
    · exact ih h

end CharClass
end GridOps
