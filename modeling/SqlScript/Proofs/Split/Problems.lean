import SqlScript.Proofs.Block.Moment
import SqlScript.Proofs.Split.Layout

/-!
# The problems of a script

Problems are collected in three places: at each cut, behind the last token, and for a block that is
still open there. Contexts are thrown away at the cuts, and not every segment makes a statement.
This module shows that nevertheless no problem is lost, moved or made up.

The problems of a report are those of its segments, one after the other. Within a segment they are
the strays of its context (`Context.pending_feedAll`), and only the last segment can leave a block
open, since a terminator inside of a block does not cut.

## Results

* `exists_tokens_of_report` — a report is made of the reports on the segments of the tokens.
* `split_diagnosed` — the problems of a script are its strays, each within a statement, and then the
  open block of the last statement; strict splitting accepts a script if and only if the effects of
  its segments match.
-/

namespace SqlScript

/-! ## Reports on whole scripts -/

/-- A script that has tokens is reported on as they say. -/
theorem report_of_tokenize {rules : Rules} {script : String} {tokens : List Token}
    (h : tokenize rules (dropByteOrderMark script) = .ok tokens) :
    report rules script = .ok (reportTokens rules (dropByteOrderMark script) tokens) := by
  unfold report
  simp only [h]
  rfl

/-- A script that has tokens is split as they say. -/
theorem split_of_tokenize {rules : Rules} {script : String} {tokens : List Token}
    (h : tokenize rules (dropByteOrderMark script) = .ok tokens) :
    split rules script = .ok (splitTokens rules (dropByteOrderMark script) tokens) := by
  unfold split
  rw [report_of_tokenize h]
  rfl

/-- The report on a script, and what its tokens say about the statements. -/
theorem exists_tokens_of_report {rules : Rules} {script : String} {result : Report}
    (h : report rules script = .ok result) :
    ∃ tokens, tokenize rules (dropByteOrderMark script) = .ok tokens ∧
      result = .concat ((segments rules id tokens).map
        (Segment.report rules (dropByteOrderMark script).toList)) ∧
      Verbatim rules (dropByteOrderMark script) tokens result.split := by
  obtain ⟨tokens, hTokens, hResult⟩ : ∃ tokens,
      tokenize rules (dropByteOrderMark script) = .ok tokens ∧
        result = reportTokens rules (dropByteOrderMark script) tokens := by
    cases hTokens : tokenize rules (dropByteOrderMark script) with
    | error error =>
      unfold report at h
      simp only [hTokens] at h
      cases h
    | ok tokens =>
      rw [report_of_tokenize hTokens] at h
      exact ⟨tokens, rfl, (Except.ok.inj h).symm⟩
  refine ⟨tokens, hTokens, ?_⟩
  obtain ⟨lexemes, hLex, hMade⟩ := lexes_of_tokenize hTokens
  obtain ⟨hLexes, hSource⟩ := lexes_of_lex hLex
  have hTiling := tiling_ofLexemesAfter rules Position.start false hLexes
  have hText : textOf (tilesOf rules lexemes) = (dropByteOrderMark script).toList := by
    rw [Tile.textOf_ofLexemesAfter, hSource]
  have hTiles : tokens = (tilesOf rules lexemes).map Tile.token := by
    rw [hMade, Tile.map_token_ofLexemesAfter]
    rfl
  have hVerbatim := verbatim_splitTiles rules hTiling hText
  rw [← splitTokens_of_tiling rules _ hTiling hText, ← hTiles] at hVerbatim
  refine ⟨?_, hResult ▸ hVerbatim⟩
  -- Columns are counted from 1, as every token starts at a character of the script.
  rw [hResult]
  refine reportTokens_eq rules _ tokens fun token hToken => ?_
  obtain ⟨front, -, -, -, hStart⟩ := hVerbatim.start token hToken
  rw [hStart]
  exact Position.one_le_column_start front

/-- A split is a report without its log. -/
theorem exists_report_of_split {rules : Rules} {script : String} {result : Split}
    (h : split rules script = .ok result) :
    ∃ told, report rules script = .ok told ∧ told.split = result := by
  unfold split at h
  cases hReport : report rules script with
  | error error =>
    rw [hReport] at h
    cases h
  | ok told =>
    rw [hReport] at h
    exact ⟨told, rfl, Except.ok.inj h⟩

/-! ## The last segment -/

section Last

variable {α : Type} (rules : Rules) (token : α → Token)

theorem contextAfter_append (context : Context) (front back : List Token) :
    contextAfter rules context (front ++ back) =
      contextAfter rules (contextAfter rules context front) back := by
  induction front generalizing context with
  | nil => rfl
  | cons first rest ih => exact ih _

/-- Every segment but the last is ended by a terminator, and the context after all items is that of
the last one. -/
theorem exists_last_segment (items : List α) :
    ∃ init last, segments rules token items = init ++ [⟨last, none⟩] ∧
      (∀ segment ∈ init, segment.terminator ≠ none) ∧
      contextAfter rules Context.empty (items.map token) =
        Context.empty.feedAll rules (last.map token) := by
  induction items using cut_induction rules token with
  | last items h => exact ⟨[], items, segments_uncut h, nofun, contextAfter_of_uncut h⟩
  | cut body mark rest h ih =>
    obtain ⟨init, last, hRest, hInit, hLast⟩ := ih
    refine ⟨⟨body, some mark⟩ :: init, last, ?_, ?_, ?_⟩
    · rw [segments_cut h, hRest]
      rfl
    -- The first segment is cut, and the others are those of the rest.
    · intro segment hSegment
      rcases List.mem_cons.mp hSegment with rfl | hSegment
      · nofun
      · exact hInit segment hSegment
    · rw [List.map_append, List.map_cons, contextAfter_append, contextAfter_of_uncut h.uncut,
        contextAfter, if_pos h.cuts, hLast]

end Last

/-! ## The problems of the segments -/

section Segments

variable (rules : Rules)

/-- The statement of a segment starts where its segment opens, and what its keywords say about it is
what the context of the segment says. -/
theorem Segment.of_mem_statement {rules : Rules} {script : List Char} {segment : Segment Token}
    {statement : Statement} (h : statement ∈ segment.statement rules script) :
    opening segment.items = some statement.start ∧
      statement.keywordCount = (segment.context rules).keywords.size ∧
      statement.maxDepth = (segment.context rules).maxDepth ∧
      statement.terminated = segment.terminator.isSome := by
  obtain ⟨first, hFirst, hPiece⟩ := Option.mem_bind_iff.mp h
  rw [Statement.eq_of_mem_ofPiece hPiece]
  exact ⟨hFirst, rfl, rfl, rfl⟩

/-- The strays of a script are the problems that the contexts of its segments find. -/
theorem flatMap_pending_segments (tokens : List Token) :
    (segments rules id tokens).flatMap (fun segment => (segment.context rules).pending.toList) =
      (strays rules Context.empty tokens).map fun token => .unmatchedEnd token.start := by
  -- Every segment starts anew, as the script does behind a cut.
  induction tokens using cut_induction rules id with
  | last tokens h =>
    have hUncut : Context.empty.Uncut rules tokens := by simpa using h
    rw [segments_uncut h, List.flatMap_singleton]
    exact Context.pending_feedAll rules hUncut
  | cut body mark rest h ih =>
    have hCut : Cut rules body mark := by simpa using h
    rw [segments_cut h, List.flatMap_cons, ih, strays_cut rules hCut, List.map_append]
    congr 1
    exact Context.pending_feedAll rules hCut.uncut

/-- Only a segment with a keyword in it can leave a block open. -/
theorem exists_solid_of_depth_ne_zero {tokens : List Token}
    (h : (Context.empty.feedAll rules tokens).depth ≠ 0) :
    ∃ token ∈ tokens, token.isTrivia = false := by
  by_contra hNone
  -- Trivia hold no keywords, and without keywords nothing is opened.
  have hTrivia : ∀ token ∈ tokens, token.isKeyword = false := by
    intro token hToken
    have hNot : token.isTrivia ≠ false := fun hSolid => hNone ⟨token, hToken, hSolid⟩
    exact Token.isKeyword_of_isTrivia (by simpa using hNot)
  rw [Context.feedAll_of_not_keyword _ _ hTrivia] at h
  exact h rfl

/-- The problems of a report are the strays, and then the block that the last segment leaves
open. -/
theorem diagnostics_segments (script : List Char) {tokens last : List Token}
    {init : List (Segment Token)} (hParts : segments rules id tokens = init ++ [⟨last, none⟩])
    (hInit : ∀ segment ∈ init, segment.terminator ≠ none) :
    (Report.concat
      ((segments rules id tokens).map (Segment.report rules script))).diagnostics.toList =
      (strays rules Context.empty tokens).map (fun token => .unmatchedEnd token.start) ++
        (((⟨last, none⟩ : Segment Token).unclosed rules).map fun place =>
          Diagnostic.unclosedBlock place.1 place.2).toList := by
  -- The segments in front of the last one are ended, so they leave no block open.
  have hEnded : init.flatMap (fun segment => (segment.report rules script).diagnostics.toList) =
      init.flatMap fun segment => (segment.context rules).pending.toList := by
    refine List.flatMap_congr fun segment hSegment => ?_
    have hNone : segment.unclosed rules = none := if_neg fun h => hInit segment hSegment h.1
    simp [Segment.report, Segment.reportWith, hNone]
  rw [Report.diagnostics_concat, ← flatMap_pending_segments rules tokens, hParts,
    List.flatMap_append, List.flatMap_append, hEnded, List.append_assoc]
  simp [Segment.report, Segment.reportWith]

end Segments

/-! ## Diagnosed splits -/

/-- The effects of a script match: in no segment more blocks are closed than opened up to any place,
and the last segment closes all that it opens. -/
structure Matched (rules : Rules) (tokens : List Token) : Prop where
  neverBelow : ∀ segment ∈ segments rules id tokens, NeverBelow rules segment.items
  total : ∀ segment ∈ (segments rules id tokens).getLast?, totalEffect rules segment.items = 0

/-- A split is diagnosed if its problems are what is wrong with the blocks of the script. -/
structure Diagnosed (rules : Rules) (tokens : List Token) (result : Split) : Prop where
  /-- If no block is open at the end, the problems are the strays in order. -/
  closed : (contextAfter rules Context.empty tokens).depth = 0 →
    result.diagnostics.toList =
      (strays rules Context.empty tokens).map fun token => .unmatchedEnd token.start
  /-- If one is open, there is one more problem behind the strays: the block of the last statement,
  which is not terminated. -/
  opened : (contextAfter rules Context.empty tokens).depth ≠ 0 →
    ∃ last, result.statements.toList.getLast? = some last ∧ last.terminated = false ∧
      result.diagnostics.toList =
        (strays rules Context.empty tokens).map (fun token => .unmatchedEnd token.start) ++
          [.unclosedBlock last.start (contextAfter rules Context.empty tokens).depth]
  /-- Every stray is a keyword within a statement. -/
  within : ∀ token ∈ strays rules Context.empty tokens, token.isKeyword = true ∧
    ∃ statement ∈ result.statements.toList, statement.Covers token.start
  /-- Scripts with matching effects are accepted with all their statements. -/
  accepted : Matched rules tokens → result.strict = .ok result.statements
  /-- All others are rejected with all their problems. -/
  rejected : ¬ Matched rules tokens →
    result.strict = .error (.malformed result.diagnostics.toList)

section Diagnosed

variable {rules : Rules} {script : String} {tokens : List Token} {told : Report}

/-- A block that is left open at the end is reported at the last statement, which is not
terminated. -/
theorem exists_last_statement (hVerbatim : Verbatim rules script tokens told.split)
    {init : List (Segment Token)} {last : List Token}
    (hParts : segments rules id tokens = init ++ [⟨last, none⟩])
    (hDepth : (Context.empty.feedAll rules last).depth ≠ 0) :
    ∃ statement, told.statements.toList.getLast? = some statement ∧
      statement.terminated = false ∧
      (⟨last, none⟩ : Segment Token).unclosed rules =
        some (statement.start, (Context.empty.feedAll rules last).depth) := by
  -- A keyword has opened the block, so the segment makes a statement.
  have hSolid := exists_solid_of_depth_ne_zero rules hDepth
  have hMakes := (hVerbatim.makes ⟨last, none⟩ (by simp [hParts])).mpr hSolid
  obtain ⟨statement, hStatement⟩ := Option.isSome_iff_exists.mp hMakes
  obtain ⟨hOpening, -, -, hTerminated⟩ := Segment.of_mem_statement hStatement
  refine ⟨statement, ?_, hTerminated, ?_⟩
  · have hMade : told.statements.toList = _ := hVerbatim.made
    rw [hMade, hParts, List.filterMap_append, List.filterMap_cons, hStatement]
    simp
  · unfold Segment.unclosed
    rw [if_pos ⟨rfl, hDepth⟩, hOpening]
    rfl

/-- The effects of a script match if and only if there is no problem. -/
theorem matched_iff : Matched rules tokens ↔
    strays rules Context.empty tokens = [] ∧
      (contextAfter rules Context.empty tokens).depth = 0 := by
  obtain ⟨init, last, hParts, -, hLast⟩ := exists_last_segment rules id tokens
  rw [List.map_id, List.map_id] at hLast
  -- No segment has a stray if and only if no sum falls below zero.
  have hStrays : strays rules Context.empty tokens = [] ↔
      ∀ segment ∈ segments rules id tokens, NeverBelow rules segment.items := by
    have hPending := flatMap_pending_segments rules tokens
    rw [← List.map_eq_nil_iff (f := fun token : Token => Diagnostic.unmatchedEnd token.start),
      ← hPending, List.flatMap_eq_nil_iff]
    refine forall₂_congr fun segment _ => ?_
    rw [Array.toList_eq_nil_iff]
    exact Context.pending_eq_empty_iff rules segment.items
  have hTotal : (∀ segment ∈ (segments rules id tokens).getLast?,
      totalEffect rules segment.items = 0) ↔ totalEffect rules last = 0 := by
    simp [hParts]
  rw [hLast, hStrays]
  -- A sum that never falls below zero is the depth at the end.
  constructor
  · intro h
    have hDepth := Context.depth_of_neverBelow rules last
      (h.neverBelow ⟨last, none⟩ (by simp [hParts]))
    have hZero := hTotal.mp h.total
    exact ⟨h.neverBelow, by omega⟩
  · rintro ⟨hBelow, hZero⟩
    have hDepth := Context.depth_of_neverBelow rules last (hBelow ⟨last, none⟩ (by simp [hParts]))
    exact ⟨hBelow, hTotal.mpr (by omega)⟩

/-- A stray is no terminator and no trivia, so it is within a statement. -/
theorem exists_statement_of_stray (hVerbatim : Verbatim rules script tokens told.split)
    {token : Token} (h : token ∈ strays rules Context.empty tokens) :
    token.isKeyword = true ∧
      ∃ statement ∈ told.statements.toList, statement.Covers token.start := by
  obtain ⟨hMem, hKeyword⟩ := mem_of_mem_strays rules h
  refine ⟨hKeyword, ?_⟩
  obtain ⟨front, back, rfl⟩ := List.append_of_mem hMem
  have hCovered := hVerbatim.covered front token back rfl
  have hKind : token.kind = .keyword := by simpa [Token.isKeyword] using hKeyword
  -- A keyword is no terminator, so the script is not cut there and some statement covers it.
  have hNot : ¬ CutAfter rules script front token := by
    rintro ⟨hMark, -⟩
    rw [Token.isKeyword_of_isTerminator hMark] at hKeyword
    cases hKeyword
  rw [if_neg hNot] at hCovered
  obtain ⟨before, statement, later, hStatements, hCovers, -⟩ :=
    hCovered (by simp [Token.isTrivia, hKind])
  refine ⟨statement, ?_, hCovers⟩
  show statement ∈ told.split.statements.toList
  rw [hStatements]
  exact List.mem_append_right before List.mem_cons_self

section Reported

variable (hTold : told = .concat
  ((segments rules id tokens).map (Segment.report rules script.toList)))

include hTold

/-- If no block is open at the end, the problems are the strays. -/
theorem diagnostics_of_closed (hDepth : (contextAfter rules Context.empty tokens).depth = 0) :
    told.diagnostics.toList =
      (strays rules Context.empty tokens).map fun token => .unmatchedEnd token.start := by
  obtain ⟨init, last, hParts, hInit, hLast⟩ := exists_last_segment rules id tokens
  rw [List.map_id, List.map_id] at hLast
  rw [hLast] at hDepth
  have hNone : (⟨last, none⟩ : Segment Token).unclosed rules = none := if_neg fun h => h.2 hDepth
  rw [hTold, diagnostics_segments rules script.toList hParts hInit, hNone]
  simp

variable (hVerbatim : Verbatim rules script tokens told.split)

include hVerbatim

/-- If one is open, it is the block of the last statement. -/
theorem diagnostics_of_open (hDepth : (contextAfter rules Context.empty tokens).depth ≠ 0) :
    ∃ statement, told.statements.toList.getLast? = some statement ∧
      statement.terminated = false ∧ told.diagnostics.toList =
        (strays rules Context.empty tokens).map (fun token => .unmatchedEnd token.start) ++
          [.unclosedBlock statement.start (contextAfter rules Context.empty tokens).depth] := by
  obtain ⟨init, last, hParts, hInit, hLast⟩ := exists_last_segment rules id tokens
  rw [List.map_id, List.map_id] at hLast
  -- The context at the end is that of the last segment, as all others are closed by a cut.
  rw [hLast] at hDepth ⊢
  obtain ⟨statement, hStatement, hTerminated, hUnclosed⟩ :=
    exists_last_statement hVerbatim hParts hDepth
  refine ⟨statement, hStatement, hTerminated, ?_⟩
  have hDiagnostics := diagnostics_segments rules script.toList hParts hInit
  rw [← hTold, hUnclosed] at hDiagnostics
  exact hDiagnostics

/-- There is no problem if and only if the effects match. -/
theorem isClean_iff_matched : told.split.isClean = true ↔ Matched rules tokens := by
  rw [matched_iff, Split.isClean, Array.isEmpty_iff, ← Array.toList_eq_nil_iff]
  show told.diagnostics.toList = [] ↔ _
  by_cases hDepth : (contextAfter rules Context.empty tokens).depth = 0
  · rw [diagnostics_of_closed hTold hDepth]
    simp [hDepth]
  · -- The block that is left open is a problem, whatever the strays are.
    obtain ⟨statement, -, -, hProblems⟩ := diagnostics_of_open hTold hVerbatim hDepth
    rw [hProblems]
    simp [hDepth]

/-- The report on a script is diagnosed. -/
theorem diagnosed_of_verbatim : Diagnosed rules tokens told.split where
  closed := diagnostics_of_closed hTold
  opened := diagnostics_of_open hTold hVerbatim
  within _ hToken := exists_statement_of_stray hVerbatim hToken
  accepted hMatched := if_pos ((isClean_iff_matched hTold hVerbatim).mpr hMatched)
  rejected hMatched := if_neg (mt (isClean_iff_matched hTold hVerbatim).mp hMatched)

end Reported

end Diagnosed

/-- The problems of a script that can be split are exactly what is wrong with its blocks, and strict
splitting rejects the script if and only if something is. -/
theorem split_diagnosed {rules : Rules} {script : String} {result : Split}
    (h : split rules script = .ok result) :
    ∃ tokens, tokenize rules (dropByteOrderMark script) = .ok tokens ∧
      Diagnosed rules tokens result := by
  obtain ⟨told, hReport, rfl⟩ := exists_report_of_split h
  obtain ⟨tokens, hTokens, hTold, hVerbatim⟩ := exists_tokens_of_report hReport
  exact ⟨tokens, hTokens, diagnosed_of_verbatim hTold hVerbatim⟩

/-! ### A script with two problems -/

/-- A stray keyword in a statement of its own, and a block that the script ends in. -/
theorem tokenize_end_begin : tokenize Dialect.hsqldb.rules "END;BEGIN" =
    .ok [⟨"END", .keyword, ⟨1, 1⟩⟩, ⟨";", .terminator, ⟨1, 4⟩⟩, ⟨"BEGIN", .keyword, ⟨1, 5⟩⟩] := by
  decide +kernel

theorem split_end_begin : split Dialect.hsqldb.rules "END;BEGIN" =
    .ok ⟨#[⟨"END", ⟨1, 1⟩, 1, 0, true⟩, ⟨"BEGIN", ⟨1, 5⟩, 1, 1, false⟩],
      #[.unmatchedEnd ⟨1, 1⟩, .unclosedBlock ⟨1, 5⟩ 1]⟩ := by
  decide +kernel

/-- The stray keyword is reported, and then the block that the script ends in. -/
theorem split_diagnosed_unclosed :
    ∃ tokens, tokenize Dialect.hsqldb.rules (dropByteOrderMark "END;BEGIN") = .ok tokens ∧
      Diagnosed Dialect.hsqldb.rules tokens
        ⟨#[⟨"END", ⟨1, 1⟩, 1, 0, true⟩, ⟨"BEGIN", ⟨1, 5⟩, 1, 1, false⟩],
          #[.unmatchedEnd ⟨1, 1⟩, .unclosedBlock ⟨1, 5⟩ 1]⟩ :=
  split_diagnosed split_end_begin

end SqlScript
