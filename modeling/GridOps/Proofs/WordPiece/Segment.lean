import GridOps.WordPiece.Segment

/-!
The tokens of a word, and of the words of a string.

The buffers that the words of a string share carry nothing over: a word gives the same tokens
whatever was in the buffers before (`emitWord_load`), so that the tokens of a string are those of
its words, one after the other (`emitWords_eq`).  A word gives at most one token per character.
-/

namespace GridOps
namespace Vocabulary

variable {v : Vocabulary}

theorem longestPiece?_bounds {continuation : Bool} {cs : List Char} {n length : Nat} {id : UInt32}
    (h : v.longestPiece? continuation cs n = some (length, id)) : 0 < length ∧ length ≤ n := by
  induction n with
  | zero => cases h
  | succ n ih =>
    rw [longestPiece?] at h
    cases hpiece : v.lookupPiece (cs.take (n + 1)) continuation with
    | some found =>
      rw [hpiece] at h
      cases h
      exact ⟨Nat.succ_pos n, Nat.le_refl _⟩
    | none =>
      rw [hpiece] at h
      exact ⟨(ih h).1, Nat.le_succ_of_le (ih h).2⟩

/-- Pieces that cover the characters are collected behind those that are there, and a place where
none starts is told. -/
theorem collect_eq (fuel : Nat) (continuation : Bool) (cs : List Char) (pieces : Array UInt32) :
    match v.segmentFrom fuel continuation cs with
    | some tokens => v.collect fuel continuation cs pieces = (true, pieces ++ tokens.toArray)
    | none => (v.collect fuel continuation cs pieces).1 = false := by
  -- What is collected already is arbitrary: the pieces of the word come before those of its rest.
  induction fuel generalizing continuation cs pieces with
  | zero => cases cs <;> simp [segmentFrom, collect]
  | succ fuel ih =>
    cases cs with
    | nil => simp [segmentFrom, collect]
    | cons c rest =>
      rw [segmentFrom, collect]
      · cases hpiece : v.longestPiece? continuation (c :: rest) (c :: rest).length with
        | none => rfl
        | some piece =>
          obtain ⟨length, id⟩ := piece
          have hrest := ih true ((c :: rest).drop length) (pieces.push id)
          dsimp only
          cases htokens : v.segmentFrom fuel true ((c :: rest).drop length) with
          | none =>
            rw [htokens] at hrest
            exact hrest
          | some tokens =>
            rw [htokens] at hrest
            dsimp only [Option.map_some]
            rw [hrest]
            simp
      all_goals simp

theorem length_segmentFrom_le {fuel : Nat} {continuation : Bool} {cs : List Char}
    {tokens : List UInt32} (h : v.segmentFrom fuel continuation cs = some tokens) :
    tokens.length ≤ cs.length := by
  induction fuel generalizing continuation cs tokens with
  | zero =>
    cases cs with
    | nil =>
      cases h
      exact Nat.le_refl 0
    | cons c rest => cases h
  | succ fuel ih =>
    cases cs with
    | nil =>
      simp only [segmentFrom, Option.some.injEq] at h
      subst h
      exact Nat.le_refl 0
    | cons c rest =>
      rw [segmentFrom] at h
      · cases hpiece : v.longestPiece? continuation (c :: rest) (c :: rest).length with
        | none =>
          rw [hpiece] at h
          cases h
        | some piece =>
          obtain ⟨length, id⟩ := piece
          rw [hpiece] at h
          obtain ⟨more, hmore, rfl⟩ := Option.map_eq_some_iff.mp h
          have hbounds := longestPiece?_bounds hpiece
          have hrest := ih hmore
          rw [List.length_drop] at hrest
          rw [List.length_cons]
          omega
      · simp

/-- What is emitted for a word, in terms of its pieces alone. -/
theorem emitWord_fst (v : Vocabulary) (maxLength : Nat) (s : Scratch) :
    (v.emitWord maxLength s).1 =
      if maxLength < s.word.size then [v.unknownId]
      else (v.segment? s.word.toList).getD [v.unknownId] := by
  unfold emitWord segment?
  by_cases hlong : maxLength < s.word.size
  · rw [if_pos hlong, if_pos hlong]
  · rw [if_neg hlong, if_neg hlong, Array.length_toList]
    have hcollect := v.collect_eq s.word.size false s.word.toList #[]
    cases htokens : v.segmentFrom s.word.size false s.word.toList with
    | some tokens =>
      rw [htokens] at hcollect
      dsimp only at hcollect
      rw [hcollect]
      simp
    | none =>
      -- Pieces may have been collected before the place where none starts; they are dropped.
      rw [htokens] at hcollect
      dsimp only at hcollect
      cases hpieces : v.collect s.word.size false s.word.toList #[] with
      | mk covered pieces =>
        rw [hpieces] at hcollect
        dsimp only at hcollect
        subst hcollect
        rfl

theorem tokenizeWord_eq (v : Vocabulary) (maxLength : Nat) (word : List Char) :
    v.tokenizeWord maxLength word =
      if maxLength < word.length then [v.unknownId] else (v.segment? word).getD [v.unknownId] :=
  emitWord_fst v maxLength (Scratch.empty.load word)

/-- A word gives the tokens that it gives alone, whatever the words before it left behind. -/
theorem emitWord_load (v : Vocabulary) (maxLength : Nat) (s : Scratch) (word : List Char) :
    (v.emitWord maxLength (s.load word)).1 = v.tokenizeWord maxLength word := by
  rw [tokenizeWord, emitWord_fst, emitWord_fst]
  rfl

theorem emitWords_eq (v : Vocabulary) (maxLength : Nat) (words : List (List Char)) (s : Scratch) :
    v.emitWords maxLength words s = words.flatMap (v.tokenizeWord maxLength) := by
  induction words generalizing s with
  | nil => rfl
  | cons word rest ih =>
    rw [emitWords, List.flatMap_cons]
    dsimp only
    rw [ih, emitWord_load]

theorem length_tokenizeWord_le (v : Vocabulary) (maxLength : Nat) {word : List Char}
    (h : word ≠ []) :
    (v.tokenizeWord maxLength word).length ≤ word.length := by
  have hone : 1 ≤ word.length := List.length_pos_iff.mpr h
  rw [tokenizeWord_eq]
  split
  · exact hone
  · cases htokens : v.segment? word with
    | some tokens => exact length_segmentFrom_le htokens
    | none => exact hone

theorem length_flatMap_tokenizeWord_le (v : Vocabulary) (maxLength : Nat) (words : List (List Char))
    (h : ∀ word ∈ words, word ≠ []) :
    (words.flatMap (v.tokenizeWord maxLength)).length ≤ words.flatten.length := by
  induction words with
  | nil => exact Nat.le_refl 0
  | cons word rest ih =>
    have hword := v.length_tokenizeWord_le maxLength (h word List.mem_cons_self)
    have hrest := ih fun w hw => h w (List.mem_cons_of_mem word hw)
    rw [List.flatMap_cons, List.flatten_cons, List.length_append, List.length_append]
    omega

end Vocabulary
end GridOps
