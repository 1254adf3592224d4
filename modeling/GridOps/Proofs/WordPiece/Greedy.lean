import GridOps.Proofs.WordPiece.Segment
import Mathlib.Data.List.Chain
import Mathlib.Order.Bounds.Basic

/-!
The greedy segmentation of a word.

`GreedyFrom v word first cuts` says of a list of positions, without a loop, that it cuts the rest of
the word greedily: each next cut is the largest end of a piece that starts at the one before, and
the last cut is the end of the word.  There is at most one such list (`GreedyFrom.unique`).  What is
emitted for a word are the tokens between its cuts, and the unknown token alone if the word has no
cuts or is too long (`emitWord_greedy`), however many pieces were found before the place where the
search got stuck.
-/

namespace GridOps
namespace Vocabulary

/-- The token of the piece of `word` from one position to another.  Only a piece at the start of the
word is written without the mark. -/
def pieceToken? (v : Vocabulary) (word : List Char) (first last : Nat) : Option UInt32 :=
  v.lookupPiece (word.extract first last) (decide (0 < first))

/-- The ends of the pieces of `word` that start at `first`. -/
def pieceEnds (v : Vocabulary) (word : List Char) (first : Nat) : Set Nat :=
  {last | first < last ∧ last ≤ word.length ∧ (v.pieceToken? word first last).isSome}

/-- The cuts from `first` to the end of the word, each the largest end of a piece that starts at the
cut before. -/
structure GreedyFrom (v : Vocabulary) (word : List Char) (first : Nat) (cuts : List Nat) :
    Prop where
  start : cuts.head? = some first
  finish : cuts.getLast? = some word.length
  longest : cuts.IsChain fun cut next => IsGreatest (v.pieceEnds word cut) next

/-- The tokens of the pieces between consecutive cuts. -/
def tokensBetween (v : Vocabulary) (word : List Char) (cuts : List Nat) : List (Option UInt32) :=
  (cuts.zip cuts.tail).map fun c => v.pieceToken? word c.1 c.2

variable {v : Vocabulary} {word cs : List Char} {continuation : Bool} {first n length : Nat}
  {id : UInt32} {cuts cuts' : List Nat}

/-! ## The longest piece -/

theorem longestPiece?_eq_none_iff : v.longestPiece? continuation cs n = none ↔
    ∀ k, 0 < k → k ≤ n → v.lookupPiece (cs.take k) continuation = none := by
  induction n with
  | zero =>
    refine iff_of_true rfl fun k hpos hle => ?_
    omega
  | succ n ih =>
    rw [longestPiece?]
    constructor
    · intro h k hpos hle
      cases hpiece : v.lookupPiece (cs.take (n + 1)) continuation with
      | some id => simp [hpiece] at h
      | none =>
        rw [hpiece] at h
        rcases Nat.lt_or_eq_of_le hle with hlt | rfl
        · exact ih.mp h k hpos (by omega)
        · exact hpiece
    · intro h
      rw [h (n + 1) (by omega) (Nat.le_refl _)]
      exact ih.mpr fun k hpos hle => h k hpos (by omega)

theorem longestPiece?_eq_some_iff : v.longestPiece? continuation cs n = some (length, id) ↔
    v.lookupPiece (cs.take length) continuation = some id ∧
      IsGreatest {k | 0 < k ∧ k ≤ n ∧ (v.lookupPiece (cs.take k) continuation).isSome} length := by
  induction n with
  | zero =>
    refine iff_of_false (by simp [longestPiece?]) fun h => ?_
    have hbounds := h.2.1
    simp only [Set.mem_ofPred_eq] at hbounds
    omega
  | succ n ih =>
    rw [longestPiece?]
    cases hpiece : v.lookupPiece (cs.take (n + 1)) continuation with
    | some found =>
      have hgreatest : IsGreatest
          {k | 0 < k ∧ k ≤ n + 1 ∧ (v.lookupPiece (cs.take k) continuation).isSome} (n + 1) :=
        ⟨⟨Nat.succ_pos n, Nat.le_refl _, by simp [hpiece]⟩, fun k hk => hk.2.1⟩
      constructor
      · intro h
        simp only [Option.some.injEq, Prod.mk.injEq] at h
        obtain ⟨rfl, rfl⟩ := h
        exact ⟨hpiece, hgreatest⟩
      · intro h
        obtain rfl := h.2.unique hgreatest
        rw [hpiece] at h
        rw [Option.some.inj h.1]
    | none =>
      -- No piece has all `n + 1` characters, so the bound may be lowered.
      have hsame : {k | 0 < k ∧ k ≤ n + 1 ∧ (v.lookupPiece (cs.take k) continuation).isSome} =
          {k | 0 < k ∧ k ≤ n ∧ (v.lookupPiece (cs.take k) continuation).isSome} := by
        ext k
        simp only [Set.mem_ofPred_eq]
        rcases Nat.lt_or_ge n k with hk | hk
        · refine iff_of_false (fun h => ?_) fun h => by omega
          obtain rfl : k = n + 1 := by omega
          simp [hpiece] at h
        · simp [hk, Nat.le_succ_of_le hk]
      rw [hsame]
      exact ih

/-- The pieces of what follows a position are those that end behind it. -/
theorem mem_pieceEnds_iff {last : Nat} : last ∈ v.pieceEnds word first ↔
    ∃ k, last = first + k ∧ 0 < k ∧ k ≤ (word.drop first).length ∧
      (v.lookupPiece ((word.drop first).take k) (decide (0 < first))).isSome := by
  have hextract : ∀ k, word.extract first (first + k) = (word.drop first).take k := by
    intro k
    rw [List.extract_eq_take_drop, Nat.add_sub_cancel_left]
  simp only [pieceEnds, pieceToken?, Set.mem_ofPred_eq, List.length_drop]
  constructor
  · intro ⟨hlt, hle, hpiece⟩
    obtain ⟨k, rfl⟩ := Nat.exists_eq_add_of_le (Nat.le_of_lt hlt)
    rw [hextract] at hpiece
    exact ⟨k, rfl, by omega, by omega, hpiece⟩
  · intro ⟨k, hk, hpos, hle, hpiece⟩
    subst hk
    rw [hextract]
    exact ⟨by omega, by omega, hpiece⟩

theorem pieceEnds_of_none
    (h : v.longestPiece? (decide (0 < first)) (word.drop first) (word.drop first).length = none) :
    v.pieceEnds word first = ∅ := by
  refine Set.eq_empty_of_forall_notMem fun last hlast => ?_
  obtain ⟨k, -, hpos, hle, hpiece⟩ := mem_pieceEnds_iff.mp hlast
  rw [longestPiece?_eq_none_iff.mp h k hpos hle] at hpiece
  cases hpiece

theorem pieceEnds_of_some
    (h : v.longestPiece? (decide (0 < first)) (word.drop first) (word.drop first).length =
      some (length, id)) :
    v.pieceToken? word first (first + length) = some id ∧
      IsGreatest (v.pieceEnds word first) (first + length) := by
  obtain ⟨hpiece, hmem, hbound⟩ := longestPiece?_eq_some_iff.mp h
  refine ⟨?_, mem_pieceEnds_iff.mpr ⟨length, rfl, hmem⟩, fun last hlast => ?_⟩
  · rw [pieceToken?, List.extract_eq_take_drop, Nat.add_sub_cancel_left]
    exact hpiece
  · obtain ⟨k, rfl, hk⟩ := mem_pieceEnds_iff.mp hlast
    have hle : k ≤ length := hbound hk
    omega

/-! ## Cuts -/

theorem pieceEnds_length (v : Vocabulary) (word : List Char) :
    v.pieceEnds word word.length = ∅ := by
  refine Set.eq_empty_of_forall_notMem fun last hlast => ?_
  have hlt := hlast.1
  have hle := hlast.2.1
  omega

theorem greedyFrom_length (v : Vocabulary) (word : List Char) :
    v.GreedyFrom word word.length [word.length] :=
  ⟨rfl, rfl, .singleton _⟩

/-- Greedy cuts from a position are that position alone, if it is the end of the word, and else are
followed by the greedy cuts from the largest end of a piece there. -/
theorem greedyFrom_cons_iff : v.GreedyFrom word first (first :: cuts) ↔
    (cuts = [] ∧ first = word.length) ∨
      ∃ next, IsGreatest (v.pieceEnds word first) next ∧ v.GreedyFrom word next cuts := by
  cases cuts with
  | nil =>
    constructor
    · intro h
      exact Or.inl ⟨rfl, Option.some.inj h.finish⟩
    · rintro (⟨-, rfl⟩ | ⟨next, -, h⟩)
      · exact greedyFrom_length v word
      · cases h.start
  | cons next rest =>
    constructor
    · intro h
      obtain ⟨hnext, hrest⟩ := List.isChain_cons_cons.mp h.longest
      have hfinish := h.finish
      rw [List.getLast?_cons_cons] at hfinish
      exact Or.inr ⟨next, hnext, rfl, hfinish, hrest⟩
    · rintro (⟨hnil, -⟩ | ⟨next', hnext, h⟩)
      · cases hnil
      · obtain rfl : next = next' := Option.some.inj h.start
        exact ⟨rfl, List.getLast?_cons_cons.trans h.finish,
          List.isChain_cons_cons.mpr ⟨hnext, h.longest⟩⟩

theorem GreedyFrom.exists_cons (h : v.GreedyFrom word first cuts) :
    ∃ rest, cuts = first :: rest := by
  cases cuts with
  | nil => cases h.start
  | cons head rest =>
    obtain rfl : head = first := Option.some.inj h.start
    exact ⟨rest, rfl⟩

/-- Only the end of the word itself is cut there. -/
theorem GreedyFrom.of_length (h : v.GreedyFrom word word.length cuts) : cuts = [word.length] := by
  obtain ⟨more, rfl⟩ := h.exists_cons
  rcases greedyFrom_cons_iff.mp h with ⟨rfl, -⟩ | ⟨next, hnext, -⟩
  · rfl
  · exact absurd hnext.nonempty (Set.not_nonempty_iff_eq_empty.mpr (pieceEnds_length v word))

/-- Before the end of the word greedy cuts go on with the largest end of a piece. -/
theorem GreedyFrom.step (h : v.GreedyFrom word first cuts) (hlt : first < word.length) :
    ∃ next more, cuts = first :: more ∧ IsGreatest (v.pieceEnds word first) next ∧
      v.GreedyFrom word next more := by
  obtain ⟨more, rfl⟩ := h.exists_cons
  rcases greedyFrom_cons_iff.mp h with ⟨-, hend⟩ | ⟨next, hnext, hmore⟩
  · exact absurd hend (Nat.ne_of_lt hlt)
  · exact ⟨next, more, rfl, hnext, hmore⟩

/-- A position has at most one list of greedy cuts. -/
theorem GreedyFrom.unique (h : v.GreedyFrom word first cuts) (h' : v.GreedyFrom word first cuts') :
    cuts = cuts' := by
  induction cuts generalizing first cuts' with
  | nil => cases h.start
  | cons head rest ih =>
    obtain rfl : head = first := Option.some.inj h.start
    rcases greedyFrom_cons_iff.mp h with ⟨rfl, rfl⟩ | ⟨next, hnext, hrest⟩
    · exact h'.of_length.symm
    · have hlt : head < word.length := Nat.lt_of_lt_of_le hnext.1.1 hnext.1.2.1
      obtain ⟨next', rest', rfl, hnext', hrest'⟩ := h'.step hlt
      obtain rfl := hnext.unique hnext'
      rw [ih hrest hrest']

/-- Greedy cuts ascend, and the pieces between them are what follows the first. -/
theorem GreedyFrom.covers (h : v.GreedyFrom word first cuts) :
    cuts.Pairwise (· < ·) ∧
      (cuts.zip cuts.tail).flatMap (fun c => word.extract c.1 c.2) = word.drop first := by
  induction cuts generalizing first with
  | nil => cases h.start
  | cons head rest ih =>
    obtain rfl : head = first := Option.some.inj h.start
    rcases greedyFrom_cons_iff.mp h with ⟨rfl, rfl⟩ | ⟨next, hnext, hrest⟩
    · simp
    · obtain ⟨hsorted, hcover⟩ := ih hrest
      obtain ⟨more, rfl⟩ := hrest.exists_cons
      have hlt := hnext.1.1
      constructor
      · refine List.pairwise_cons.mpr ⟨fun cut hcut => ?_, hsorted⟩
        rcases List.mem_cons.mp hcut with rfl | hcut
        · exact hlt
        · exact Nat.lt_trans hlt (List.rel_of_pairwise_cons hsorted hcut)
      · rw [List.tail_cons, List.zip_cons_cons, List.flatMap_cons]
        rw [List.tail_cons] at hcover
        rw [hcover, List.extract_eq_take_drop]
        obtain ⟨k, rfl⟩ := Nat.exists_eq_add_of_le (Nat.le_of_lt hlt)
        rw [Nat.add_sub_cancel_left, ← List.drop_drop, List.take_append_drop]

/-! ## The search -/

theorem tokensBetween_cons (v : Vocabulary) (word : List Char)
    (first next : Nat) (rest : List Nat) :
    v.tokensBetween word (first :: next :: rest) =
      v.pieceToken? word first next :: v.tokensBetween word (next :: rest) := rfl

/-- The search finds the tokens between the greedy cuts, and nothing if there are none. -/
theorem segmentFrom_greedy {fuel : Nat} (hfirst : first ≤ word.length)
    (hfuel : word.length ≤ first + fuel) :
    match v.segmentFrom fuel (decide (0 < first)) (word.drop first) with
    | some tokens => ∃ cuts, v.GreedyFrom word first cuts ∧
        v.tokensBetween word cuts = tokens.map some
    | none => ∀ cuts, ¬v.GreedyFrom word first cuts := by
  -- Each piece has a character, so what is left of the fuel suffices for what is left of the word.
  induction fuel generalizing first with
  | zero =>
    obtain rfl : first = word.length := by omega
    rw [List.drop_length]
    exact ⟨_, greedyFrom_length v word, rfl⟩
  | succ fuel ih =>
    cases hrest : word.drop first with
    | nil =>
      have hend : first = word.length :=
        Nat.le_antisymm hfirst (List.drop_eq_nil_iff.mp hrest)
      subst hend
      exact ⟨_, greedyFrom_length v word, rfl⟩
    | cons c rest =>
      have hinside : first < word.length := by
        refine Nat.lt_of_not_le fun hle => ?_
        rw [List.drop_eq_nil_of_le hle] at hrest
        cases hrest
      rw [segmentFrom, ← hrest]
      · cases hpiece : v.longestPiece? (decide (0 < first)) (word.drop first)
          (word.drop first).length with
        | none =>
          intro cuts hcuts
          obtain ⟨next, -, -, hnext, -⟩ := hcuts.step hinside
          exact absurd hnext.nonempty (Set.not_nonempty_iff_eq_empty.mpr (pieceEnds_of_none hpiece))
        | some piece =>
          obtain ⟨length, id⟩ := piece
          obtain ⟨htoken, hgreatest⟩ := pieceEnds_of_some hpiece
          have hlt : first < first + length := hgreatest.1.1
          have hle : first + length ≤ word.length := hgreatest.1.2.1
          have hmore := ih hle (by omega)
          rw [decide_eq_true (by omega : 0 < first + length), ← List.drop_drop] at hmore
          dsimp only
          cases htokens : v.segmentFrom fuel true ((word.drop first).drop length) with
          | none =>
            rw [htokens] at hmore
            intro cuts hcuts
            obtain ⟨next, more, -, hnext, hafter⟩ := hcuts.step hinside
            rw [hnext.unique hgreatest] at hafter
            exact hmore more hafter
          | some tokens =>
            rw [htokens] at hmore
            obtain ⟨more, hcuts, hbetween⟩ := hmore
            refine ⟨first :: more, greedyFrom_cons_iff.mpr (Or.inr ⟨_, hgreatest, hcuts⟩), ?_⟩
            obtain ⟨rest', rfl⟩ := hcuts.exists_cons
            rw [tokensBetween_cons, htoken, hbetween]
            rfl
      all_goals simp

/-- Every round takes a character, so rounds beyond the number of characters change nothing. -/
theorem collect_fuel {fuel fuel' : Nat} (pieces : Array UInt32) (h : cs.length ≤ fuel)
    (h' : cs.length ≤ fuel') :
    v.collect fuel continuation cs pieces = v.collect fuel' continuation cs pieces := by
  induction fuel generalizing fuel' continuation cs pieces with
  | zero =>
    rw [List.length_eq_zero_iff.mp (Nat.le_zero.mp h)]
    simp [collect]
  | succ fuel ih =>
    cases cs with
    | nil => simp [collect]
    | cons c rest =>
      cases fuel' with
      | zero => cases h'
      | succ fuel' =>
        rw [collect, collect]
        · cases hpiece : v.longestPiece? continuation (c :: rest) (c :: rest).length with
          | none => rfl
          | some piece =>
            have hbounds := longestPiece?_bounds hpiece
            have hdrop : ((c :: rest).drop piece.1).length ≤ rest.length := by
              rw [List.length_drop, List.length_cons]
              omega
            exact ih _ (hdrop.trans (Nat.le_of_succ_le_succ h))
              (hdrop.trans (Nat.le_of_succ_le_succ h'))
        all_goals simp

/-- The search through a whole word, as `segmentFrom_greedy` tells it. -/
theorem segment?_greedy (v : Vocabulary) (word : List Char) :
    match v.segment? word with
    | some tokens => ∃ cuts, v.GreedyFrom word 0 cuts ∧ v.tokensBetween word cuts = tokens.map some
    | none => ∀ cuts, ¬v.GreedyFrom word 0 cuts :=
  v.segmentFrom_greedy (Nat.zero_le word.length) (Nat.le_add_left word.length 0)

theorem segment?_of_greedy (h : v.GreedyFrom word 0 cuts) :
    ∃ tokens, v.segment? word = some tokens ∧ v.tokensBetween word cuts = tokens.map some := by
  have hsegment := v.segment?_greedy word
  cases htokens : v.segment? word with
  | none =>
    rw [htokens] at hsegment
    exact absurd h (hsegment cuts)
  | some tokens =>
    rw [htokens] at hsegment
    obtain ⟨cuts', hcuts', hbetween⟩ := hsegment
    rw [h.unique hcuts']
    exact ⟨tokens, rfl, hbetween⟩

theorem segment?_eq_none (h : ∀ cuts, ¬v.GreedyFrom word 0 cuts) : v.segment? word = none := by
  have hsegment := v.segment?_greedy word
  cases htokens : v.segment? word with
  | none => rfl
  | some tokens =>
    rw [htokens] at hsegment
    obtain ⟨cuts, hcuts, -⟩ := hsegment
    exact absurd hcuts (h cuts)

/-- A word of at most `maxLength` characters that has greedy cuts gives the tokens between them, and
any other word the unknown token alone.  The cuts ascend, the pieces between them follow each other
through the whole word, and there is one list of them; the search for them takes at most one round
for each character. -/
theorem emitWord_greedy (v : Vocabulary) (maxLength : Nat) (s : Scratch) (word : List Char) :
    (∀ cuts, v.GreedyFrom word 0 cuts → word.length ≤ maxLength →
      (v.emitWord maxLength (s.load word)).1.map some = v.tokensBetween word cuts) ∧
    (maxLength < word.length ∨ (∀ cuts, ¬v.GreedyFrom word 0 cuts) →
      (v.emitWord maxLength (s.load word)).1 = [v.unknownId]) ∧
    (∀ cuts, v.GreedyFrom word 0 cuts →
      cuts.Pairwise (· < ·) ∧
      (cuts.zip cuts.tail).flatMap (fun c => word.extract c.1 c.2) = word ∧
      ∀ cuts', v.GreedyFrom word 0 cuts' → cuts' = cuts) ∧
    ∀ fuel, word.length ≤ fuel →
      v.collect fuel false word #[] = v.collect word.length false word #[] := by
  have hemit : (v.emitWord maxLength (s.load word)).1 =
      if maxLength < word.length then [v.unknownId]
      else (v.segment? word).getD [v.unknownId] := by
    rw [emitWord_load, tokenizeWord_eq]
  refine ⟨?_, ?_, ?_, fun fuel hfuel => collect_fuel #[] hfuel (Nat.le_refl _)⟩
  · intro cuts hcuts hshort
    obtain ⟨tokens, htokens, hbetween⟩ := segment?_of_greedy hcuts
    rw [hemit, if_neg (Nat.not_lt.mpr hshort), htokens, hbetween]
    rfl
  · intro hnot
    rw [hemit]
    split
    · rfl
    · next hshort =>
      rw [segment?_eq_none (hnot.resolve_left hshort)]
      rfl
  · intro cuts hcuts
    obtain ⟨hsorted, hcover⟩ := hcuts.covers
    exact ⟨hsorted, hcover, fun cuts' hcuts' => hcuts'.unique hcuts⟩

/-! A vocabulary of `a`, `ab` and `##bc`, which cover `abc` although the greedy cuts get stuck. -/

def abAndC : Vocabulary :=
  ⟨1, 0, #[⟨65543, 0⟩], #[0, 1873618446047051785, 0, 0, 0, 417018740744, 6356999], 1, 2, 3⟩

theorem emitWord_greedy_stuck :
    abAndC.pieceToken? ['a', 'b', 'c'] 0 1 = some 7 ∧
      abAndC.pieceToken? ['a', 'b', 'c'] 1 3 = some 9 ∧
      (abAndC.emitWord 4 (Scratch.empty.load ['a', 'b', 'c'])).1 = [1] ∧
      (abAndC.emitWord 4 (Scratch.empty.load ['a', 'b', 'b', 'c'])).1.map some =
        abAndC.tokensBetween ['a', 'b', 'b', 'c'] [0, 2, 4] ∧
      abAndC.tokensBetween ['a', 'b', 'b', 'c'] [0, 2, 4] = [some 8, some 9] ∧
      (abAndC.emitWord 3 (Scratch.empty.load ['a', 'b', 'b', 'c'])).1 = [1] := by
  have hab : IsGreatest (abAndC.pieceEnds ['a', 'b', 'c'] 0) 2 :=
    (@pieceEnds_of_some abAndC _ 0 2 8 (by decide)).2
  have hc : abAndC.pieceEnds ['a', 'b', 'c'] 2 = ∅ := pieceEnds_of_none (by decide)
  have hstuck : ∀ cuts, ¬abAndC.GreedyFrom ['a', 'b', 'c'] 0 cuts := by
    intro cuts hcuts
    obtain ⟨next, more, -, hnext, hmore⟩ := hcuts.step (by decide)
    obtain rfl := hnext.unique hab
    obtain ⟨next', -, -, hnext', -⟩ := hmore.step (by decide)
    exact absurd hnext'.nonempty (Set.not_nonempty_iff_eq_empty.mpr hc)
  have hfirst : IsGreatest (abAndC.pieceEnds ['a', 'b', 'b', 'c'] 0) 2 :=
    (@pieceEnds_of_some abAndC _ 0 2 8 (by decide)).2
  have hsecond : IsGreatest (abAndC.pieceEnds ['a', 'b', 'b', 'c'] 2) 4 :=
    (@pieceEnds_of_some abAndC _ 2 2 9 (by decide)).2
  have hcuts : abAndC.GreedyFrom ['a', 'b', 'b', 'c'] 0 [0, 2, 4] :=
    ⟨rfl, rfl, .cons_cons hfirst (.cons_cons hsecond (.singleton _))⟩
  obtain ⟨-, hunknown, -⟩ := emitWord_greedy abAndC 4 .empty ['a', 'b', 'c']
  obtain ⟨hgreedy, -⟩ := emitWord_greedy abAndC 4 .empty ['a', 'b', 'b', 'c']
  obtain ⟨-, hlong, -⟩ := emitWord_greedy abAndC 3 .empty ['a', 'b', 'b', 'c']
  exact ⟨by decide, by decide, hunknown (Or.inr hstuck), hgreedy _ hcuts (by decide), by decide,
    hlong (Or.inl (by decide))⟩

end Vocabulary
end GridOps
