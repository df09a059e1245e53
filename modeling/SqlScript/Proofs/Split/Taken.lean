import SqlScript.Proofs.Block.Essence
import SqlScript.Proofs.Split.Concat
import SqlScript.Proofs.Split.Layout
import SqlScript.Proofs.Token.Relex

/-!
# Statements taken from scripts

A statement that is taken from its script leaves behind what stood around it: the blanks and the
comments in front, the blanks behind, the other segments. This module collects what can be said of
it without them. Its text is spelled by lexemes (`Taken.Spelling`), and these alone say how many
keywords it has, how deep its blocks are and how many of its closing keywords closed nothing.

The problems of a script are one list for all of its statements. `Taken.unmatched` counts those
that lie in a statement; since the segments of a script are apart, these are the problems that its
own context has found.

## Results

* `exists_lexemes_of_mem_segments` — the tiles of a segment are made of lexemes by themselves.
* `unmatchedWithin_splitTiles`     — the problems within a statement are those of its segment.
* `exists_spelling`                — a statement taken from a script has a spelling.
-/

namespace SqlScript

/-! ## The lexemes of a segment -/

/-- Behind blanks and comments there is no period. -/
theorem Tile.endsInPeriod_of_isTrivia {lexemes : List Lexeme}
    (h : ∀ lexeme ∈ lexemes, lexeme.kind = .blank ∨ lexeme.kind = .comment) :
    endsInPeriod false lexemes = false := by
  unfold endsInPeriod
  induction lexemes with
  | nil => rfl
  | cons lexeme rest ih =>
    have hPeriod : lexeme.isPeriod = false := by
      rcases h lexeme List.mem_cons_self with hKind | hKind <;> simp [Lexeme.isPeriod, hKind]
    rw [List.foldl_cons, hPeriod]
    exact ih fun other hOther => h other (List.mem_cons_of_mem _ hOther)

/-- The tiles of a segment are made of lexemes by themselves, as if no others stood around. -/
theorem exists_lexemes_of_mem_segments (rules : Rules) {position : Position}
    {lexemes : List Lexeme} (h : Lexes lexemes []) :
    ∀ segment ∈ segments rules Tile.token (Tile.ofLexemesAfter rules position false lexemes),
      ∃ start others after, segment.items = Tile.ofLexemesAfter rules start false others ∧
        Lexes others after ∧ Stops after := by
  generalize hTiles : Tile.ofLexemesAfter rules position false lexemes = tiles
  induction tiles using cut_induction rules Tile.token generalizing position lexemes with
  | last tiles hUncut =>
    intro segment hSegment
    rw [segments_uncut hUncut, List.mem_singleton] at hSegment
    rw [hSegment]
    exact ⟨position, lexemes, [], hTiles.symm, h, stops_nil⟩
  | cut body mark rest hCut ih =>
    obtain ⟨hLexemes, hBack, hFront⟩ := Tile.ofLexemesAfter_eq_append hTiles
    -- The mark is a semicolon, which is no period and stops every lexeme in front of it.
    have hMem : mark ∈ Tile.ofLexemesAfter rules position false lexemes := by
      rw [hTiles]
      simp
    have hKind : mark.lexeme.kind = .terminator := by
      simpa [Tile.isTerminator_of_mem hMem] using hCut.cuts.1
    have hNotPeriod : mark.lexeme.isPeriod = false := by
      simp [Lexeme.isPeriod, hKind]
    rw [List.map_cons] at hLexemes hBack
    rw [Tile.ofLexemesAfter, List.cons.injEq, hNotPeriod] at hBack
    rw [hLexemes] at h
    obtain ⟨hBody, hRest⟩ := lexes_append.mp h
    intro segment hSegment
    rw [segments_cut hCut] at hSegment
    rcases List.mem_cons.mp hSegment with rfl | hSegment
    · refine ⟨position, _, _, hFront (by simpa using hNotPeriod), hBody, ?_⟩
      obtain ⟨⟨c, taken, hSource, hRead⟩, -⟩ := hRest
      have hSemicolon := (readLexeme_readFrom hRead).terminator hKind
      rw [sourceOf_cons, hSemicolon]
      exact stops_semicolon _
    · exact ih hRest.2 hBack.2.symm segment hSegment

/-! ## Problems within a statement -/

/-- Whether the problem is a closing keyword that closed nothing. -/
def Diagnostic.isUnmatchedEnd : Diagnostic → Bool
  | unmatchedEnd _ => true
  | unclosedBlock _ _ => false

/-- The number of closing keywords that closed nothing. -/
def Split.unmatched (result : Split) : Nat :=
  result.diagnostics.toList.countP Diagnostic.isUnmatchedEnd

/-- The number of closing keywords of the statement that closed nothing. -/
def Split.unmatchedWithin (result : Split) (statement : Statement) : Nat :=
  result.diagnostics.toList.countP fun problem =>
    problem.isUnmatchedEnd && statement.Spans problem.position

section Problems

variable {rules : Rules} {position : Position}

/-- The problems of a segment are the closing keywords that its context has found, and perhaps
blocks without an end. -/
theorem mem_diagnostics {segment : Segment Tile} {problem : Diagnostic}
    (h : problem ∈ (segment.tileReport rules).diagnostics.toList)
    (hUnmatched : problem.isUnmatchedEnd = true) :
    ∃ tile ∈ segment.items, tile.token.isTrivia = false ∧
      problem = .unmatchedEnd tile.token.start := by
  simp only [Segment.tileReport, Segment.reportWith, Array.toList_append, List.mem_append] at h
  -- An unmatched end is pending in the context, since an open block is of the other sort.
  rcases h with hPending | hUnclosed
  · obtain hOld | ⟨token, hToken, hKeyword, rfl⟩ :=
      Context.mem_pending (Array.mem_toList_iff.mp hPending)
    · simp [Context.empty] at hOld
    · obtain ⟨tile, hTile, rfl⟩ := List.mem_map.mp hToken
      refine ⟨tile, hTile, ?_, rfl⟩
      have hKind : tile.token.kind = .keyword := by simpa [Token.isKeyword] using hKeyword
      simp [Token.isTrivia, hKind]
  · cases hPlace : (segment.map Tile.token).unclosed rules with
    | none => simp [hPlace] at hUnclosed
    | some place =>
      rw [hPlace] at hUnclosed
      have hProblem : problem = .unclosedBlock place.1 place.2 := by simpa using hUnclosed
      rw [hProblem] at hUnmatched
      cases hUnmatched

/-- The closing keywords that closed nothing are all that the context of a segment has found. -/
theorem countP_tileReport (segment : Segment Tile) :
    (segment.tileReport rules).diagnostics.toList.countP Diagnostic.isUnmatchedEnd =
      ((segment.map Tile.token).context rules).pending.size := by
  -- All that is pending are unmatched ends, and an open block is none.
  have hPending : ∀ problem ∈ ((segment.map Tile.token).context rules).pending.toList,
      problem.isUnmatchedEnd = true := by
    intro problem hProblem
    obtain hOld | ⟨token, -, -, rfl⟩ := Context.mem_pending (Array.mem_toList_iff.mp hProblem)
    · simp [Context.empty] at hOld
    · rfl
  have hUnclosed : ∀ place : Option (Position × Nat),
      (place.map fun place => Diagnostic.unclosedBlock place.1 place.2).toArray.toList.countP
        Diagnostic.isUnmatchedEnd = 0 := by
    intro place
    cases place <;> rfl
  simp only [Segment.tileReport, Segment.reportWith, Array.toList_append, List.countP_append]
  rw [hUnclosed, Nat.add_zero, List.countP_eq_length.mpr hPending, Array.length_toList]

/-- Segments without a token that a statement spans have no problem within it. -/
theorem countP_flatMap_eq_zero {parts : List (Segment Tile)} {statement : Statement}
    (h : ∀ tile ∈ tilesIn parts, ¬ statement.Spans tile.token.start) :
    (parts.flatMap fun segment => (segment.tileReport rules).diagnostics.toList).countP
      (fun problem => problem.isUnmatchedEnd && statement.Spans problem.position) = 0 := by
  rw [List.countP_eq_zero]
  intro problem hProblem hWithin
  obtain ⟨segment, hSegment, hMem⟩ := List.mem_flatMap.mp hProblem
  rw [Bool.and_eq_true, decide_eq_true_eq] at hWithin
  obtain ⟨tile, hTile, -, rfl⟩ := mem_diagnostics hMem hWithin.1
  refine h tile ?_ hWithin.2
  exact List.mem_flatMap.mpr ⟨segment, hSegment, List.mem_append_left _ hTile⟩

/-- The problems within a statement are the ones that its segment has. -/
theorem unmatchedWithin_splitTiles {tiles : List Tile} (h : Tiling Position.start tiles)
    {segment : Segment Tile} (hSegment : segment ∈ segments rules Tile.token tiles)
    {statement : Statement} (hCut : segment.cutOut rules = some statement) :
    (splitTiles rules tiles).unmatchedWithin statement =
      ((segment.map Tile.token).context rules).pending.size := by
  have hTiling := tiling_segments rules h
  obtain ⟨start, hItems⟩ := tiling_items_of_mem hTiling hSegment
  obtain ⟨lead, body, trail, hExcerpt⟩ := Segment.excerpt_of_cutOut hItems hCut
  obtain ⟨before, later, hParts⟩ := List.append_of_mem hSegment
  rw [hParts] at hTiling
  have hBefore : ∀ tile ∈ tilesIn before, ¬ statement.Spans tile.token.start := by
    intro tile hTile
    exact not_spans_of_mem_front hTiling hTile
      (List.mem_filterMap.mpr ⟨segment, List.mem_cons_self, hCut⟩)
  have hLater : ∀ tile ∈ tilesIn later, ¬ statement.Spans tile.token.start := by
    intro tile hTile
    rw [List.append_cons] at hTiling
    exact not_spans_of_mem_back hTiling hTile
      (List.mem_filterMap.mpr ⟨segment, by simp, hCut⟩)
  -- A keyword of the segment is no trivia, so it lies within the statement.
  have hOwn : ∀ problem ∈ (segment.tileReport rules).diagnostics.toList,
      (problem.isUnmatchedEnd && statement.Spans problem.position) = true ↔
        problem.isUnmatchedEnd = true := by
    intro problem hProblem
    rw [Bool.and_eq_true, decide_eq_true_eq]
    refine and_iff_left_of_imp fun hUnmatched => ?_
    obtain ⟨tile, hTile, hTrivia, rfl⟩ := mem_diagnostics hProblem hUnmatched
    obtain ⟨items, others, hSplit⟩ := List.append_of_mem hTile
    exact (hExcerpt.covers hItems hSplit hTrivia).spans
  unfold Split.unmatchedWithin
  rw [diagnostics_splitTiles, hParts, List.flatMap_append, List.flatMap_cons, List.countP_append,
    List.countP_append, countP_flatMap_eq_zero hBefore, countP_flatMap_eq_zero hLater,
    List.countP_congr hOwn, countP_tileReport, Nat.zero_add, Nat.add_zero]

end Problems

/-! ## Taken statements -/

/-- A statement out of a script that can be split. -/
structure Taken (rules : Rules) where
  script : String
  result : Split
  statement : Statement
  split_eq : split rules script = .ok result
  mem : statement ∈ result.statements

namespace Taken

variable {rules : Rules} (part : Taken rules)

/-- The script ends inside a block of the statement. -/
def IsOpen : Prop :=
  ∃ depth, Diagnostic.unclosedBlock part.statement.start depth ∈ part.result.diagnostics

/-- The number of closing keywords of the statement that closed nothing. -/
def unmatched : Nat := part.result.unmatchedWithin part.statement

/-- The characters of the statement. -/
def chars : List Char := part.statement.text.toList

end Taken

/-- The context of a statement that is spelled by some lexemes. -/
def contextOf (rules : Rules) (lexemes : List Lexeme) : Context :=
  Context.empty.feedAll rules (essencesOf rules false lexemes)

/-- Some lexemes are read from a text and say what the statement with this text is like. -/
structure Taken.Spelling {rules : Rules} (part : Taken rules) (lexemes : List Lexeme) : Prop where
  solid : ∀ lexeme ∈ lexemes.head?, lexeme.Solid
  uncut : Context.empty.Uncut rules (essencesOf rules false lexemes)
  keywordCount : part.statement.keywordCount = (contextOf rules lexemes).keywords.size
  maxDepth : part.statement.maxDepth = (contextOf rules lexemes).maxDepth
  unmatched : part.unmatched = (contextOf rules lexemes).pending.size
  depth : ¬ part.IsOpen → (contextOf rules lexemes).depth = 0

/-- A segment that is not ended has its statement reported if it leaves blocks open. -/
theorem mem_diagnostics_of_open {rules : Rules} {position : Position} {segment : Segment Tile}
    (hItems : Tiling position segment.items) {statement : Statement} {lead body : List Tile}
    {trail : List Char} (hExcerpt : Excerpt rules position segment statement lead body trail)
    (hTerminator : segment.terminator = none)
    (hDepth : ((segment.map Tile.token).context rules).depth ≠ 0) :
    Diagnostic.unclosedBlock statement.start ((segment.map Tile.token).context rules).depth ∈
      (segment.tileReport rules).diagnostics := by
  obtain ⟨tile, rest, rfl, hTrivia⟩ := hExcerpt.first
  have hStart : statement.start = tile.token.start := by
    have hTiling := hItems
    rw [hExcerpt.items] at hTiling
    rw [hExcerpt.start, hTiling.start_eq]
  -- The lead is trivia, so the segment opens where the statement starts.
  have hOpening : opening (segment.items.map Tile.token) = some statement.start := by
    have hLead : (lead.map Tile.token).find? (fun token => !token.isTrivia) = none := by
      rw [List.find?_eq_none]
      intro token hToken
      obtain ⟨other, hOther, rfl⟩ := List.mem_map.mp hToken
      simp [hExcerpt.lead_trivia other hOther]
    rw [hStart, opening, hExcerpt.items, List.map_append, List.find?_append, hLead]
    simp [hTrivia]
  have hUnclosed : (segment.map Tile.token).unclosed rules =
      some (statement.start, ((segment.map Tile.token).context rules).depth) := by
    unfold Segment.unclosed
    rw [if_pos ⟨by simp [hTerminator], hDepth⟩, Segment.items_map, hOpening]
    rfl
  simp [Segment.tileReport, Segment.reportWith, hUnclosed]

/-- The context of a segment has no block open at its end if the statement is not reported. -/
theorem depth_eq_zero_of_closed {rules : Rules} {tiles : List Tile} {segment : Segment Tile}
    (hSegment : segment ∈ segments rules Tile.token tiles) {position : Position}
    (hItems : Tiling position segment.items) {statement : Statement} {lead body : List Tile}
    {trail : List Char} (hExcerpt : Excerpt rules position segment statement lead body trail)
    (hClosed : ¬ ∃ depth, Diagnostic.unclosedBlock statement.start depth ∈
      (splitTiles rules tiles).diagnostics) :
    ((segment.map Tile.token).context rules).depth = 0 := by
  -- A segment with a terminator was cut at depth zero. In the last one an open block would have
  -- been reported.
  cases hTerminator : segment.terminator with
  | some mark =>
    have hBoundary : ((segment.map Tile.token).context rules).atBoundary = true :=
      ((uncut_of_mem_segments rules Tile.token segment hSegment).2 mark hTerminator).2
    simpa [Context.atBoundary] using hBoundary
  | none =>
    by_contra hDepth
    have hProblem := mem_diagnostics_of_open hItems hExcerpt hTerminator hDepth
    refine hClosed ⟨((segment.map Tile.token).context rules).depth, ?_⟩
    rw [← Array.mem_toList_iff, diagnostics_splitTiles]
    exact List.mem_flatMap.mpr ⟨segment, hSegment, Array.mem_toList_iff.mpr hProblem⟩

/-- The lead takes no part in what a context sees of a segment. -/
theorem Excerpt.essences_items {rules : Rules} {position start : Position} {segment : Segment Tile}
    {statement : Statement} {lead body : List Tile} {trail : List Char}
    (hExcerpt : Excerpt rules position segment statement lead body trail) {lexemes : List Lexeme}
    (hItems : segment.items = Tile.ofLexemesAfter rules start false lexemes) :
    essences (segment.items.map Tile.token) = essencesOf rules false (body.map Tile.lexeme) := by
  have hLead : essences (lead.map Tile.token) = [] := by
    refine essences_of_isTrivia fun token hToken => ?_
    obtain ⟨tile, hTile, rfl⟩ := List.mem_map.mp hToken
    exact hExcerpt.lead_trivia tile hTile
  -- No period ends the lead, so the first word of the body is not qualified.
  have hPeriod : Tile.endsInPeriod false (lead.map Tile.lexeme) = false := by
    refine Tile.endsInPeriod_of_isTrivia fun lexeme hLexeme => ?_
    obtain ⟨tile, hTile, rfl⟩ := List.mem_map.mp hLexeme
    have hMem : tile ∈ Tile.ofLexemesAfter rules start false lexemes := by
      rw [← hItems, hExcerpt.items]
      exact List.mem_append_left _ hTile
    have hTrivia := hExcerpt.lead_trivia tile hTile
    rw [Tile.isTrivia_of_mem hMem, decide_eq_true_eq] at hTrivia
    exact hTrivia
  rw [hExcerpt.items] at hItems ⊢
  obtain ⟨-, hBody, -⟩ := Tile.ofLexemesAfter_eq_append hItems.symm
  rw [List.map_append, essences_append, hLead, List.nil_append, hBody, hPeriod,
    Tile.map_token_ofLexemesAfter, Tile.map_lexeme_ofLexemesAfter, essences_ofLexemesAfter]

/-- A statement taken from a script is spelled by lexemes that stand there before a stop, with
blanks behind its text. -/
theorem exists_spelling {rules : Rules} (part : Taken rules) :
    ∃ lexemes after trail, part.Spelling lexemes ∧ Lexes lexemes after ∧ Stops after ∧
      sourceOf lexemes = part.chars ++ trail ∧ (∀ c ∈ trail, isBlank c = true) ∧
      Trimmed part.chars := by
  obtain ⟨script, hLex, hResult⟩ := lex_of_split part.split_eq
  obtain ⟨hScript, -⟩ := lexes_of_lex hLex
  have hTiling := tiling_ofLexemesAfter rules Position.start false hScript
  -- The segment that the statement was cut out of, and its own lexemes.
  have hMem := Array.mem_toList_iff.mpr part.mem
  rw [hResult, statements_splitTiles] at hMem
  obtain ⟨segment, hSegment, hCut⟩ := List.mem_filterMap.mp hMem
  obtain ⟨start, others, after, hItems, hOthers, hAfter⟩ :=
    exists_lexemes_of_mem_segments rules hScript segment hSegment
  have hSegmentTiling : Tiling start segment.items := by
    rw [hItems]
    exact tiling_ofLexemesAfter rules start false hOthers
  obtain ⟨lead, body, trail, hExcerpt⟩ := Segment.excerpt_of_cutOut hSegmentTiling hCut
  have hEssences := hExcerpt.essences_items hItems
  have hAlike : ((segment.map Tile.token).context rules).Alike
      (contextOf rules (body.map Tile.lexeme)) := by
    unfold contextOf
    rw [← hEssences]
    exact (Context.Alike.refl Context.empty).feedAll_essences _
  have hLexes : Lexes (body.map Tile.lexeme) after := by
    have hParts := hItems.symm
    rw [hExcerpt.items] at hParts
    obtain ⟨rfl, -, -⟩ := Tile.ofLexemesAfter_eq_append hParts
    exact (lexes_append.mp hOthers).2
  refine ⟨body.map Tile.lexeme, after, trail, ⟨?solid, ?uncut, ?count, ?maxDepth, ?unmatched,
    ?depth⟩, hLexes, hAfter, hExcerpt.text, hExcerpt.trail_blank, hExcerpt.trimmed⟩
  case solid =>
    obtain ⟨tile, rest, rfl, hTrivia⟩ := hExcerpt.first
    have hTile : tile ∈ Tile.ofLexemesAfter rules start false others := by
      rw [← hItems, hExcerpt.items]
      simp
    intro lexeme hLexeme
    rw [List.map_cons, List.head?_cons, Option.mem_some_iff] at hLexeme
    rw [Tile.isTrivia_of_mem hTile, decide_eq_false_iff_not, not_or] at hTrivia
    rw [← hLexeme]
    exact hTrivia
  case uncut =>
    rw [← hEssences]
    exact ((Context.Alike.refl Context.empty).uncut_essences _).mp
      (uncut_of_mem_segments rules Tile.token segment hSegment).1
  case count => rw [hExcerpt.keywordCount, hAlike.keywords]
  case maxDepth => rw [hExcerpt.maxDepth, hAlike.maxDepth]
  case unmatched =>
    unfold Taken.unmatched
    rw [hResult, unmatchedWithin_splitTiles hTiling hSegment hCut, hAlike.pending]
  case depth =>
    intro hClosed
    rw [← hAlike.depth]
    unfold Taken.IsOpen at hClosed
    rw [hResult] at hClosed
    exact depth_eq_zero_of_closed hSegment hSegmentTiling hExcerpt hClosed

end SqlScript
