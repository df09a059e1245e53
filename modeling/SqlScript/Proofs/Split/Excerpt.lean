import SqlScript.Proofs.Split.Segment
import SqlScript.Proofs.Text.Trim
import SqlScript.Proofs.Token.Tile

/-!
# The statement of a segment

A statement is looked up in the script by positions. Where the tiles of the script are known, it
can be read off them: the blanks and comments in front of a segment are dropped, what is left is
the text of the statement and then blanks. `Excerpt` is this relation between a segment and its
statement; it does not mention the script.

## Results

* `Segment.excerpt_of_cutOut` — the statement of a segment is an excerpt of it.
* `Segment.cutOut_eq_none`    — a segment without statement holds blanks and comments only.
* `statement_eq_cutOut`       — looking the statement up in the script gives the same.
* `split_of_lex`              — a script that has lexemes is split as its tiles say.
-/

namespace SqlScript

/-! ## Statements of pieces -/

/-- A piece that is more than blanks makes a statement. -/
theorem Statement.ofPiece_of_ne_nil {piece : List Char} (h : trimChars piece ≠ [])
    (start : Position) (context : Context) (terminated : Bool) :
    ofPiece piece start context terminated =
      some ⟨String.ofList (trimChars piece), start, context.keywords.size, context.maxDepth,
        terminated⟩ := by
  unfold ofPiece
  simp [h]

/-- A statement that is made at all is made of what is given. -/
theorem Statement.eq_of_mem_ofPiece {piece : List Char} {start : Position} {context : Context}
    {terminated : Bool} {statement : Statement}
    (h : statement ∈ ofPiece piece start context terminated) :
    statement = ⟨String.ofList (trimChars piece), start, context.keywords.size, context.maxDepth,
      terminated⟩ := by
  by_cases hBlank : trimChars piece = []
  · simp [ofPiece, hBlank] at h
  · rw [ofPiece_of_ne_nil hBlank] at h
    exact (Option.mem_some_iff.mp h).symm

/-! ## The core of a segment -/

/-- The tiles from the first one on that is more than a blank or a comment. -/
def core (tiles : List Tile) : List Tile := tiles.dropWhile fun tile => tile.token.isTrivia

/-- In front of the core there are blanks and comments, and it starts with something else. -/
theorem exists_core (tiles : List Tile) :
    ∃ lead, tiles = lead ++ core tiles ∧ (∀ tile ∈ lead, tile.token.isTrivia = true) ∧
      ∀ tile ∈ (core tiles).head?, tile.token.isTrivia = false := by
  refine ⟨tiles.takeWhile fun tile => tile.token.isTrivia,
    List.takeWhile_append_dropWhile.symm, ?_, ?_⟩
  · intro tile hTile
    exact List.mem_takeWhile_imp (p := fun tile : Tile => tile.token.isTrivia) hTile
  intro tile hTile
  have hNot := List.head?_dropWhile_not (fun tile : Tile => tile.token.isTrivia) tiles
  unfold core at hTile
  rw [Option.mem_def.mp hTile] at hNot
  exact hNot

/-- A statement starts where the core of its tiles does. -/
theorem opening_eq_core (tiles : List Tile) :
    opening (tiles.map Tile.token) = (core tiles).head?.map fun tile => tile.token.start := by
  unfold opening core
  rw [List.find?_map, List.find?_eq_head?_dropWhile_not]
  simp [Function.comp_def]

namespace Segment

variable (rules : Rules)

/-- The statement that the tiles of a segment make, if they make one. -/
def cutOut (segment : Segment Tile) : Option Statement :=
  (core segment.items).head?.bind fun first =>
    Statement.ofPiece (textOf (core segment.items)) first.token.start
      ((segment.map Tile.token).context rules) segment.terminator.isSome

end Segment

/-- The statement is cut out of a segment that starts at the position: the lead is dropped, and of
the body the blanks behind the text. -/
structure Excerpt (rules : Rules) (position : Position) (segment : Segment Tile)
    (statement : Statement) (lead body : List Tile) (trail : List Char) : Prop where
  items : segment.items = lead ++ body
  lead_trivia : ∀ tile ∈ lead, tile.token.isTrivia = true
  first : ∃ tile rest, body = tile :: rest ∧ tile.token.isTrivia = false
  text : textOf body = statement.text.toList ++ trail
  trimmed : Trimmed statement.text.toList
  trail_blank : ∀ c ∈ trail, isBlank c = true
  start : statement.start = position.advanceBy (textOf lead)
  keywordCount : statement.keywordCount = ((segment.map Tile.token).context rules).keywords.size
  maxDepth : statement.maxDepth = ((segment.map Tile.token).context rules).maxDepth

/-- A segment holds blanks and comments only and makes no statement, or it makes one. -/
theorem Segment.cutOut_cases (rules : Rules) {position : Position} {segment : Segment Tile}
    (h : Tiling position segment.items) :
    ((∀ tile ∈ segment.items, tile.token.isTrivia = true) ∧ segment.cutOut rules = none) ∨
      ∃ statement lead body trail, segment.cutOut rules = some statement ∧
        Excerpt rules position segment statement lead body trail := by
  obtain ⟨lead, hItems, hLead, hFirst⟩ := exists_core segment.items
  unfold cutOut
  cases hCore : core segment.items with
  | nil =>
    rw [hCore, List.append_nil] at hItems
    rw [hItems]
    exact .inl ⟨hLead, rfl⟩
  | cons first rest =>
    rw [hCore] at hItems hFirst
    have hTrivia := hFirst first rfl
    rw [hItems] at h
    obtain ⟨⟨hStart, hGenuine⟩, -⟩ := (tiling_append.mp h).2
    -- The first tile is no trivia, so its first character is no blank.
    obtain ⟨c, taken, hSource⟩ := List.exists_cons_of_ne_nil hGenuine.ne_nil
    have hHead := hGenuine.head hTrivia c (by rw [hSource]; rfl)
    have hPiece : textOf (first :: rest) = c :: (taken ++ textOf rest) := by
      rw [textOf_cons, hSource]
      rfl
    obtain ⟨hTrimmed, trail, hText, hTrail⟩ :=
      trimChars_of_head (taken ++ textOf rest) hHead
    rw [← hPiece] at hTrimmed hText
    have hStatement := Statement.ofPiece_of_ne_nil hTrimmed.ne_nil first.token.start
      ((segment.map Tile.token).context rules) segment.terminator.isSome
    refine .inr ⟨_, lead, first :: rest, trail, hStatement, ⟨hItems, hLead,
      ⟨first, rest, rfl, hTrivia⟩, ?_, ?_, hTrail, hStart, rfl, rfl⟩⟩
    · simpa using hText
    · simpa using hTrimmed

/-- The statement that a segment makes is an excerpt of it. -/
theorem Segment.excerpt_of_cutOut {rules : Rules} {position : Position} {segment : Segment Tile}
    (h : Tiling position segment.items) {statement : Statement}
    (hCut : segment.cutOut rules = some statement) :
    ∃ lead body trail, Excerpt rules position segment statement lead body trail := by
  obtain ⟨-, hNone⟩ | ⟨other, lead, body, trail, hSome, hExcerpt⟩ := cutOut_cases rules h
  · rw [hNone] at hCut
    cases hCut
  · rw [hSome] at hCut
    cases hCut
    exact ⟨lead, body, trail, hExcerpt⟩

/-- A segment makes no statement if and only if it holds blanks and comments only. -/
theorem Segment.cutOut_eq_none {rules : Rules} {position : Position} {segment : Segment Tile}
    (h : Tiling position segment.items) :
    segment.cutOut rules = none ↔ ∀ tile ∈ segment.items, tile.token.isTrivia = true := by
  obtain ⟨hTrivia, hNone⟩ | ⟨statement, lead, body, trail, hSome, hExcerpt⟩ :=
    cutOut_cases rules h
  · exact ⟨fun _ => hTrivia, fun _ => hNone⟩
  · refine ⟨fun hNone => ?_, fun hTrivia => ?_⟩
    · rw [hSome] at hNone
      cases hNone
    · obtain ⟨tile, rest, hBody, hTile⟩ := hExcerpt.first
      -- The first tile of the body says something, so the items are not all trivia.
      have hMem : tile ∈ segment.items := by
        rw [hExcerpt.items, hBody]
        simp
      rw [hTrivia tile hMem] at hTile
      cases hTile

/-! ## Statements looked up in the script -/

/-- Looking a statement up between the positions of its segment gives the excerpt. -/
theorem statement_eq_cutOut (rules : Rules) {before : List Char} (segment : Segment Tile)
    (after : List Char) (hItems : Tiling (Position.start.advanceBy before) segment.items)
    (hMark : ∀ mark ∈ segment.terminator,
      mark.token.start = Position.start.advanceBy (before ++ textOf segment.items))
    (hEnd : segment.terminator = none → after = []) :
    (segment.map Tile.token).statement rules (before ++ textOf segment.items ++ after) =
      segment.cutOut rules := by
  obtain ⟨lead, hCore, -, -⟩ := exists_core segment.items
  unfold Segment.statement Segment.cutOut
  rw [show (segment.map Tile.token).items = segment.items.map Tile.token from rfl, opening_eq_core]
  cases hFirst : core segment.items with
  | nil => rfl
  | cons first rest =>
    rw [hFirst] at hCore
    rw [hCore] at hItems
    obtain ⟨⟨hStart, -⟩, -⟩ := (tiling_append.mp hItems).2
    rw [← Position.advanceBy_append] at hStart
    have hText : textOf segment.items = textOf lead ++ textOf (first :: rest) := by
      rw [← textOf_append, ← hCore]
    -- Both the slice up to the terminator and the one up to the end are the core.
    have hPiece : (segment.map Tile.token).piece (before ++ textOf segment.items ++ after)
        first.token.start = textOf (first :: rest) := by
      unfold Segment.piece Segment.map
      rw [hText, hStart]
      cases hTerminator : segment.terminator with
      | none =>
        rw [hEnd hTerminator, List.append_nil, ← List.append_assoc]
        dsimp only [Option.map_none]
        rw [placeOf_advanceBy]
        rfl
      | some mark =>
        have hMarkStart := hMark mark (by rw [hTerminator]; rfl)
        dsimp only [Option.map_some]
        rw [hMarkStart, hText, ← List.append_assoc]
        exact textBetween_advanceBy (before ++ textOf lead) (textOf (first :: rest)) after
    have hTerminated : (segment.map Tile.token).terminator.isSome = segment.terminator.isSome :=
      Option.isSome_map
    simp only [List.head?_cons, Option.map_some, Option.bind_some, hPiece, hTerminated]

/-! ## Scripts of tiles -/

/-- The statements of a part of a script can be read off its tiles. -/
theorem statement_of_mem_segments (rules : Rules) {tiles : List Tile} (before : List Char)
    (h : Tiling (Position.start.advanceBy before) tiles) :
    ∀ segment ∈ segments rules Tile.token tiles,
      (segment.map Tile.token).statement rules (before ++ textOf tiles) =
        segment.cutOut rules := by
  induction tiles using cut_induction rules Tile.token generalizing before with
  | last tiles hUncut =>
    intro segment hSegment
    rw [segments_uncut hUncut, List.mem_singleton] at hSegment
    have hStatement := statement_eq_cutOut rules ⟨tiles, none⟩ [] h (by simp) (by simp)
    rw [List.append_nil] at hStatement
    rw [hSegment, hStatement]
  | cut body mark rest hCut ih =>
    intro segment hSegment
    obtain ⟨hBody, ⟨hMark, -⟩, hRest⟩ := tiling_append.mp h
    rw [← Position.advanceBy_append] at hMark
    rw [← Position.advanceBy_append, ← Position.advanceBy_append, ← List.append_assoc] at hRest
    rw [segments_cut hCut, List.mem_cons] at hSegment
    rw [textOf_append, textOf_cons, ← List.append_assoc]
    obtain rfl | hOther := hSegment
    · -- The first segment ends at its terminator, and what follows is not looked at.
      exact statement_eq_cutOut rules ⟨body, some mark⟩ _ hBody (by simpa using hMark) (by simp)
    · rw [← List.append_assoc]
      exact ih _ hRest segment hOther

/-- The report on a segment of tiles. -/
def Segment.tileReport (rules : Rules) (segment : Segment Tile) : Report :=
  (segment.map Tile.token).reportWith rules (segment.cutOut rules)

/-- What comes out of splitting a script with these tiles. -/
def splitTiles (rules : Rules) (tiles : List Tile) : Split :=
  (Report.concat ((segments rules Tile.token tiles).map (Segment.tileReport rules))).split

/-- The statements of a script are those cut out of its segments. -/
theorem statements_splitTiles (rules : Rules) (tiles : List Tile) :
    (splitTiles rules tiles).statements.toList =
      (segments rules Tile.token tiles).filterMap (Segment.cutOut rules) :=
  Report.statements_concat _ _ _ fun _ => rfl

/-- The diagnostics of a script are those of its segments, in order. -/
theorem diagnostics_splitTiles (rules : Rules) (tiles : List Tile) :
    (splitTiles rules tiles).diagnostics.toList =
      (segments rules Tile.token tiles).flatMap fun segment =>
        (segment.tileReport rules).diagnostics.toList :=
  Report.diagnostics_concat _ _

/-- The tokens of a tiling are split as the tiles say, without a look-up. -/
theorem splitTokens_of_tiling (rules : Rules) (script : String) {tiles : List Tile}
    (h : Tiling Position.start tiles) (hText : textOf tiles = script.toList) :
    splitTokens rules script (tiles.map Tile.token) = splitTiles rules tiles := by
  -- Tiles start at positions that reading leads to, so all columns are at least 1.
  have hColumns : ∀ token ∈ tiles.map Tile.token, 1 ≤ token.start.column := by
    intro token hToken
    obtain ⟨tile, hTile, rfl⟩ := List.mem_map.mp hToken
    obtain ⟨front, back, rfl⟩ := List.append_of_mem hTile
    rw [h.start_eq]
    exact Position.one_le_column_start (textOf front)
  have hStatements := statement_of_mem_segments rules [] h
  rw [List.nil_append, hText] at hStatements
  -- The reports on the segments differ in their statements at most, and those are the same.
  have hReports : ∀ segment ∈ segments rules Tile.token tiles,
      (Segment.report rules script.toList ∘ Segment.map Tile.token) segment =
        segment.tileReport rules := by
    intro segment hSegment
    unfold Segment.tileReport
    rw [← hStatements segment hSegment]
    rfl
  unfold splitTokens splitTiles
  rw [reportTokens_eq rules script _ hColumns, segments_map, List.map_map,
    List.map_congr_left hReports]

/-- The tiles of a script with these lexemes. -/
abbrev tilesOf (rules : Rules) (lexemes : List Lexeme) : List Tile :=
  Tile.ofLexemesAfter rules Position.start false lexemes

/-- A script that has lexemes has tokens, one for each. -/
theorem tokenize_of_lex (rules : Rules) {script : String} {lexemes : List Lexeme}
    (h : lex script.toList = ⟨lexemes, none⟩) :
    tokenize rules script = .ok ((tilesOf rules lexemes).map Tile.token) := by
  unfold tokenize
  rw [h, Tile.map_token_ofLexemesAfter]
  rfl

/-- A script that has lexemes is split as its tiles say. -/
theorem split_of_lex (rules : Rules) {script : String} {lexemes : List Lexeme}
    (h : lex (dropByteOrderMark script).toList = ⟨lexemes, none⟩) :
    split rules script = .ok (splitTiles rules (tilesOf rules lexemes)) := by
  obtain ⟨hLexes, hSource⟩ := lexes_of_lex h
  have hTokens := tokenize_of_lex rules h
  have hSplit := splitTokens_of_tiling rules (dropByteOrderMark script)
    (tiling_ofLexemesAfter rules Position.start false hLexes)
    (by rw [Tile.textOf_ofLexemesAfter, hSource])
  rw [← hSplit]
  unfold split report
  simp only [hTokens]
  rfl

/-- A script with a fault cannot be split. -/
theorem split_of_fault (rules : Rules) {script : String} {lexemes : List Lexeme} {fault : Fault}
    (h : lex (dropByteOrderMark script).toList = ⟨lexemes, some fault⟩) :
    split rules script =
      .error (.untokenizable (Position.start.advanceBy (sourceOf lexemes ++ fault.before))
        fault.cause.message) := by
  have hTokens : tokenize rules (dropByteOrderMark script) =
      .error (.untokenizable (Position.start.advanceBy (sourceOf lexemes ++ fault.before))
        fault.cause.message) := by
    unfold tokenize
    rw [h]
    rfl
  unfold split report
  simp only [hTokens]
  rfl

/-- A script that can be split has lexemes. -/
theorem lex_of_split {rules : Rules} {script : String} {result : Split}
    (h : split rules script = .ok result) :
    ∃ lexemes, lex (dropByteOrderMark script).toList = ⟨lexemes, none⟩ ∧
      result = splitTiles rules (tilesOf rules lexemes) := by
  cases hLex : lex (dropByteOrderMark script).toList with
  | mk lexemes fault =>
    cases fault with
    | none =>
      rw [split_of_lex rules hLex] at h
      exact ⟨lexemes, rfl, (Except.ok.inj h).symm⟩
    | some fault =>
      rw [split_of_fault rules hLex] at h
      cases h

end SqlScript
