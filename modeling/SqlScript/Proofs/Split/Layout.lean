import SqlScript.Proofs.Split.Excerpt

/-!
# Where the statements stand in a script

The texts of the statements are pieces of the script, in order and apart from each other, and they
hold everything of the script but blanks, comments and the terminators that are cut at. This module
follows the statements along the segments of a script: `Laid` says that they stand where they
report to start, `Statement.Covers` which positions lie inside of one.

What keeps the statements apart is the order of positions: a segment starts no earlier than the
one before it ends.

## Results

* `laid_statements`           — the statements stand in the script as they are written.
* `coveredOnce_of_liesAfter`  — a token that is more than trivia lies in exactly one statement.
* `not_covered_of_endsAfter`  — a terminator that is cut at lies in none.
* `split_verbatim`            — a script that can be split is split verbatim.
-/

namespace SqlScript

/-! ## The order of positions -/

namespace Position

/-- One position comes before another. -/
def Before (first second : Position) : Prop :=
  first.line < second.line ∨ first.line = second.line ∧ first.column < second.column

theorem Before.trans {first second third : Position} (h : first.Before second)
    (h' : second.Before third) : first.Before third := by
  unfold Before at *
  omega

theorem not_before_self (position : Position) : ¬ position.Before position := by
  unfold Before
  omega

/-- A character moves a position to the right or down. -/
theorem before_advance (position : Position) (c : Char) : position.Before (position.advance c) := by
  unfold Before advance
  split
  · exact .inl (Nat.lt_succ_self _)
  · exact .inr ⟨rfl, Nat.lt_succ_self _⟩

/-- Characters move a position on. -/
theorem before_advanceBy (position : Position) (c : Char) (rest : List Char) :
    position.Before (position.advanceBy (c :: rest)) := by
  induction rest generalizing position c with
  | nil => exact before_advance position c
  | cons d rest ih => exact (before_advance position c).trans (ih (position.advance c) d)

/-- Characters do not move a position back. -/
theorem not_advanceBy_before (position : Position) (chars : List Char) :
    ¬ (position.advanceBy chars).Before position := by
  intro h
  cases chars with
  | nil => exact not_before_self position h
  | cons c rest => exact not_before_self _ (h.trans (before_advanceBy position c rest))

/-- A position within some characters. -/
def Within (position first last : Position) : Prop :=
  ¬ position.Before first ∧ position.Before last

/-- What lies within some characters lies within those and more on both sides. -/
theorem Within.widen {position first last : Position} (front back : List Char)
    (h : position.Within (first.advanceBy front) last) :
    position.Within first (last.advanceBy back) := by
  obtain ⟨hFirst, hLast⟩ := h
  constructor
  · intro hBefore
    cases front with
    | nil => exact hFirst hBefore
    | cons c rest => exact hFirst (hBefore.trans (before_advanceBy first c rest))
  · cases back with
    | nil => exact hLast
    | cons c rest => exact hLast.trans (before_advanceBy last c rest)

end Position

/-! ## Statements in a script -/

/-- The position is the one of a character of the statement. -/
def Statement.Covers (statement : Statement) (position : Position) : Prop :=
  ∃ front c back, statement.text.toList = front ++ c :: back ∧
    position = statement.start.advanceBy front

/-- The position lies between the start and the end of the statement. -/
def Statement.Spans (statement : Statement) (position : Position) : Prop :=
  position.Within statement.start (statement.start.advanceBy statement.text.toList)

instance (statement : Statement) (position : Position) : Decidable (statement.Spans position) :=
  inferInstanceAs (Decidable (¬ (_ < _ ∨ _ = _ ∧ _ < _) ∧ (_ < _ ∨ _ = _ ∧ _ < _)))

/-- A character of a statement lies between its start and its end. -/
theorem Statement.Covers.spans {statement : Statement} {position : Position}
    (h : statement.Covers position) : statement.Spans position := by
  obtain ⟨front, c, back, hText, rfl⟩ := h
  refine ⟨Position.not_advanceBy_before _ _, ?_⟩
  rw [hText, Position.advanceBy_append]
  exact Position.before_advanceBy _ c back

/-- The statements stand in the characters that follow a position, in order and apart, each where
it reports to start. -/
def Laid (position : Position) (chars : List Char) : List Statement → Prop
  | [] => True
  | statement :: others =>
    ∃ gap rest, chars = gap ++ statement.text.toList ++ rest ∧
      statement.start = position.advanceBy gap ∧
      Laid (position.advanceBy (gap ++ statement.text.toList)) rest others

/-- Characters in front of the statements can be passed over. -/
theorem Laid.skip {position : Position} {gap chars : List Char} {statements : List Statement}
    (h : Laid (position.advanceBy gap) chars statements) :
    Laid position (gap ++ chars) statements := by
  cases statements with
  | nil => trivial
  | cons statement others =>
    obtain ⟨gap', rest, rfl, hStart, hOthers⟩ := h
    refine ⟨gap ++ gap', rest, by simp, ?_, ?_⟩
    · rw [hStart, Position.advanceBy_append]
    · rw [List.append_assoc, Position.advanceBy_append]
      exact hOthers

/-- A statement stands where it reports to start. -/
theorem Laid.exists_place {position : Position} {chars : List Char} {statements : List Statement}
    (h : Laid position chars statements) {statement : Statement} (hMem : statement ∈ statements) :
    ∃ front back, chars = front ++ statement.text.toList ++ back ∧
      statement.start = position.advanceBy front := by
  induction statements generalizing position chars with
  | nil => cases hMem
  | cons first others ih =>
    obtain ⟨gap, rest, rfl, hStart, hOthers⟩ := h
    rcases List.mem_cons.mp hMem with rfl | hMem
    · exact ⟨gap, rest, rfl, hStart⟩
    · obtain ⟨front, back, rfl, hPlace⟩ := ih hOthers hMem
      refine ⟨gap ++ first.text.toList ++ front, back, by simp, ?_⟩
      rw [hPlace, Position.advanceBy_append _ (gap ++ first.text.toList)]

/-! ## Along the segments -/

section Segments

variable {rules : Rules} {position : Position}

/-- The text of a statement lies within its segment. -/
theorem Excerpt.textOf_items {segment : Segment Tile} {statement : Statement}
    {lead body : List Tile} {trail : List Char}
    (h : Excerpt rules position segment statement lead body trail) :
    textOf segment.items = textOf lead ++ statement.text.toList ++ trail := by
  rw [h.items, textOf_append, h.text, List.append_assoc]

theorem Excerpt.within {segment : Segment Tile} {statement : Statement}
    {lead body : List Tile} {trail : List Char}
    (h : Excerpt rules position segment statement lead body trail) {place : Position}
    (hPlace : statement.Spans place) :
    place.Within position (position.advanceBy (textOf segment.items)) := by
  have hWithin : place.Within statement.start _ := hPlace
  rw [h.start] at hWithin
  rw [h.textOf_items, Position.advanceBy_append, Position.advanceBy_append]
  exact hWithin.widen (textOf lead) trail

/-- The tiles of some segments. -/
abbrev tilesIn (parts : List (Segment Tile)) : List Tile := parts.flatMap Segment.all

/-- The statements stand in the script as they are written. -/
theorem laid_statements (rules : Rules) {parts : List (Segment Tile)}
    (h : Tiling position (tilesIn parts)) :
    Laid position (textOf (tilesIn parts)) (parts.filterMap (Segment.cutOut rules)) := by
  induction parts generalizing position with
  | nil => trivial
  | cons segment rest ih =>
    rw [tilesIn, List.flatMap_cons] at h ⊢
    obtain ⟨hSegment, hRest⟩ := tiling_append.mp h
    have hLaid := ih hRest
    have hItems := (tiling_append.mp hSegment).1
    rw [textOf_append, List.filterMap_cons]
    -- A segment of trivia is only passed over. Any other one is its lead, the text of its statement
    -- and the blanks and the terminator behind it.
    obtain ⟨-, hNone⟩ | ⟨statement, lead, body, trail, hSome, hExcerpt⟩ :=
      Segment.cutOut_cases rules hItems
    · rw [hNone]
      exact hLaid.skip
    · rw [hSome]
      have hText : textOf segment.all = textOf lead ++ statement.text.toList ++
          (trail ++ textOf segment.terminator.toList) := by
        rw [Segment.all, textOf_append, hExcerpt.textOf_items, List.append_assoc]
      refine ⟨textOf lead, (trail ++ textOf segment.terminator.toList) ++ textOf (tilesIn rest),
        by rw [hText]; simp, hExcerpt.start, ?_⟩
      refine Laid.skip ?_
      rw [← Position.advanceBy_append, ← hText]
      exact hLaid

theorem tiling_items_of_mem {parts : List (Segment Tile)} (h : Tiling position (tilesIn parts))
    {segment : Segment Tile} (hSegment : segment ∈ parts) :
    ∃ before, Tiling (position.advanceBy before) segment.items := by
  obtain ⟨before, later, rfl⟩ := List.append_of_mem hSegment
  simp only [tilesIn, List.flatMap_append, List.flatMap_cons, Segment.all] at h
  exact ⟨_, (tiling_append.mp (tiling_append.mp (tiling_append.mp h).2).1).1⟩

/-- Every statement of some segments lies within them. -/
theorem within_of_spans {parts : List (Segment Tile)} (h : Tiling position (tilesIn parts))
    {statement : Statement} (hStatement : statement ∈ parts.filterMap (Segment.cutOut rules))
    {place : Position} (hPlace : statement.Spans place) :
    place.Within position (position.advanceBy (textOf (tilesIn parts))) := by
  obtain ⟨segment, hSegment, hCut⟩ := List.mem_filterMap.mp hStatement
  obtain ⟨before, later, rfl⟩ := List.append_of_mem hSegment
  simp only [tilesIn, List.flatMap_append, List.flatMap_cons, Segment.all] at h ⊢
  have hItems := (tiling_append.mp (tiling_append.mp (tiling_append.mp h).2).1).1
  obtain ⟨lead, body, trail, hExcerpt⟩ := Segment.excerpt_of_cutOut hItems hCut
  have hWithin := (hExcerpt.within hPlace).widen (textOf (before.flatMap Segment.all))
    (textOf segment.terminator.toList ++ textOf (later.flatMap Segment.all))
  simpa using hWithin

/-- A tile that is more than trivia is not in the lead, which is all trivia. -/
theorem Excerpt.exists_front {segment : Segment Tile} {statement : Statement}
    {lead body : List Tile} {trail : List Char}
    (h : Excerpt rules position segment statement lead body trail) {items others : List Tile}
    {tile : Tile} (hItems : segment.items = items ++ tile :: others)
    (hTrivia : tile.token.isTrivia = false) :
    ∃ front, items = lead ++ front ∧ body = front ++ tile :: others := by
  have hBoth := h.items
  rw [hItems, List.append_eq_append_iff] at hBoth
  -- The tile cannot be in the lead, as that is trivia.
  obtain ⟨front, hLead, hRest⟩ | ⟨front, hFront, hBody⟩ := hBoth
  · cases front with
    | nil => exact ⟨[], by rw [hLead, List.append_nil, List.append_nil], hRest.symm⟩
    | cons first front =>
      obtain ⟨rfl, -⟩ := List.cons.inj hRest
      rw [h.lead_trivia tile (by rw [hLead]; simp)] at hTrivia
      cases hTrivia
  · exact ⟨front, hFront, hBody⟩

/-- The statement of a segment holds the start of each tile that is more than trivia. -/
theorem Excerpt.covers {segment : Segment Tile} {statement : Statement}
    {lead body : List Tile} {trail : List Char}
    (h : Excerpt rules position segment statement lead body trail)
    (hTiling : Tiling position segment.items) {items others : List Tile} {tile : Tile}
    (hItems : segment.items = items ++ tile :: others) (hTrivia : tile.token.isTrivia = false) :
    statement.Covers tile.token.start := by
  have hStart : tile.token.start = position.advanceBy (textOf items) := by
    rw [hItems] at hTiling
    exact hTiling.start_eq
  have hGenuine : tile.Genuine := hTiling.genuine (by rw [hItems]; simp)
  obtain ⟨c, taken, hSource⟩ := List.exists_cons_of_ne_nil hGenuine.ne_nil
  have hBlank := hGenuine.head hTrivia c (by rw [hSource]; rfl)
  obtain ⟨front, rfl, hBody⟩ := h.exists_front hItems hTrivia
  -- Its first character is no blank, so it stands before the blanks behind the text.
  have hText := h.text
  rw [hBody, textOf_append, textOf_cons, hSource, List.cons_append,
    List.append_eq_append_iff] at hText
  obtain ⟨rest, hStatement, hRest⟩ | ⟨rest, hFront, hTrail⟩ := hText
  · cases rest with
    | nil =>
      rw [List.nil_append] at hRest
      rw [h.trail_blank c (by rw [← hRest]; exact List.mem_cons_self)] at hBlank
      cases hBlank
    | cons d rest =>
      obtain ⟨rfl, -⟩ := List.cons.inj hRest
      refine ⟨textOf front, c, rest, hStatement, ?_⟩
      rw [hStart, h.start, textOf_append, Position.advanceBy_append]
  · rw [h.trail_blank c (by rw [hTrail]; simp)] at hBlank
    cases hBlank

/-- The position lies in exactly one of the statements. -/
def CoveredOnce (statements : List Statement) (place : Position) : Prop :=
  ∃ before statement later, statements = before ++ statement :: later ∧
    statement.Covers place ∧ ∀ other ∈ before ++ later, ¬ other.Covers place

variable {parts front back : List (Segment Tile)} {tile : Tile}

/-- Statements do not reach into the segments behind them. -/
theorem not_spans_of_mem_back (h : Tiling position (tilesIn (front ++ back)))
    (hTile : tile ∈ tilesIn back) {statement : Statement}
    (hStatement : statement ∈ front.filterMap (Segment.cutOut rules)) :
    ¬ statement.Spans tile.token.start := by
  obtain ⟨items, others, hItems⟩ := List.append_of_mem hTile
  rw [tilesIn, List.flatMap_append] at h
  obtain ⟨hFront, hBack⟩ := tiling_append.mp h
  rw [← tilesIn, ← tilesIn, hItems] at hBack
  intro hSpans
  have hWithin := within_of_spans hFront hStatement hSpans
  rw [hBack.start_eq] at hWithin
  exact Position.not_advanceBy_before _ _ hWithin.2

/-- Statements do not reach back into the segments in front of them. -/
theorem not_spans_of_mem_front (h : Tiling position (tilesIn (front ++ back)))
    (hTile : tile ∈ tilesIn front) {statement : Statement}
    (hStatement : statement ∈ back.filterMap (Segment.cutOut rules)) :
    ¬ statement.Spans tile.token.start := by
  obtain ⟨items, others, hItems⟩ := List.append_of_mem hTile
  rw [tilesIn, List.flatMap_append] at h
  obtain ⟨hFront, hBack⟩ := tiling_append.mp h
  rw [← tilesIn, hItems] at hFront hBack
  have hGenuine : tile.Genuine := hFront.genuine (by simp)
  obtain ⟨c, taken, hSource⟩ := List.exists_cons_of_ne_nil hGenuine.ne_nil
  intro hSpans
  have hWithin := within_of_spans hBack hStatement hSpans
  -- The statement starts behind the tile, which holds a character.
  rw [hFront.start_eq, textOf_append, Position.advanceBy_append, textOf_cons, hSource] at hWithin
  exact hWithin.1 (Position.before_advanceBy _ c _)

/-- A token of a segment that is more than trivia lies in exactly one statement. -/
theorem coveredOnce_of_liesAfter (h : Tiling position (tilesIn parts)) {tiles : List Tile}
    (hLies : LiesAfter tiles tile parts) (hTrivia : tile.token.isTrivia = false) :
    CoveredOnce (parts.filterMap (Segment.cutOut rules)) tile.token.start := by
  obtain ⟨before, segment, later, rfl, items, others, hItems, rfl⟩ := hLies
  have hMem : tile ∈ segment.all := by simp [Segment.all, hItems]
  have hParts := h
  simp only [tilesIn, List.flatMap_append, List.flatMap_cons, Segment.all] at hParts
  have hSegment := (tiling_append.mp (tiling_append.mp (tiling_append.mp hParts).2).1).1
  obtain ⟨hNone, -⟩ | ⟨statement, lead, body, trail, hSome, hExcerpt⟩ :=
    Segment.cutOut_cases rules hSegment
  · rw [hNone tile (by rw [hItems]; simp)] at hTrivia
    cases hTrivia
  -- The statement of the segment covers the tile, and those before and after span other positions.
  refine ⟨before.filterMap (Segment.cutOut rules), statement,
    later.filterMap (Segment.cutOut rules), ?_,
    hExcerpt.covers hSegment hItems hTrivia, ?_⟩
  · rw [List.filterMap_append, List.filterMap_cons, hSome]
  · intro other hOther
    refine mt Statement.Covers.spans ?_
    obtain hOther | hOther := List.mem_append.mp hOther
    · exact not_spans_of_mem_back h (by simp [hMem]) hOther
    · rw [List.append_cons] at h
      exact not_spans_of_mem_front h (by simp [hMem]) hOther

/-- A terminator that is cut at lies in no statement. -/
theorem not_covered_of_endsAfter (h : Tiling position (tilesIn parts)) {tiles : List Tile}
    (hEnds : EndsAfter tiles tile parts) :
    ∀ statement ∈ parts.filterMap (Segment.cutOut rules), ¬ statement.Covers tile.token.start := by
  obtain ⟨before, segment, later, rfl, hTerminator, rfl⟩ := hEnds
  have hMem : tile ∈ segment.all := by simp [Segment.all, hTerminator]
  intro statement hStatement
  refine mt Statement.Covers.spans ?_
  rw [List.filterMap_append, List.mem_append] at hStatement
  rcases hStatement with hStatement | hStatement
  · exact not_spans_of_mem_back h (by simp [hMem]) hStatement
  · -- The statement of the segment itself ends before its terminator.
    obtain ⟨part, hPart, hCut⟩ := List.mem_filterMap.mp hStatement
    rcases List.mem_cons.mp hPart with rfl | hPart
    · simp only [tilesIn, List.flatMap_append, List.flatMap_cons, Segment.all, hTerminator,
        Option.toList_some] at h
      obtain ⟨hItems, ⟨hStart, -⟩, -⟩ :=
        tiling_append.mp (tiling_append.mp (tiling_append.mp h).2).1
      obtain ⟨lead, body, trail, hExcerpt⟩ := Segment.excerpt_of_cutOut hItems hCut
      rw [hStart]
      exact fun hSpans => Position.not_before_self _ (hExcerpt.within hSpans).2
    · rw [List.append_cons] at h
      exact not_spans_of_mem_front h (by simp [hMem])
        (List.mem_filterMap.mpr ⟨part, hPart, hCut⟩)

end Segments

/-! ## Whole scripts -/

/-- A split is verbatim if its statements are what the script holds between the terminators that
are cut at, nothing more and nothing less. -/
structure Verbatim (rules : Rules) (script : String) (tokens : List Token) (result : Split) :
    Prop where
  /-- The statements are pieces of the script, in order and apart, where they report to start. -/
  laid : Laid Position.start script.toList result.statements.toList
  /-- Statements have no blank ends and are not empty. -/
  trimmed : ∀ statement ∈ result.statements.toList, Trimmed statement.text.toList
  /-- Tokens that are more than trivia lie in one statement, unless they are cut at; those lie
  outside of all statements. -/
  covered : ∀ front token back, tokens = front ++ token :: back →
    if CutAfter rules script front token then
      ∀ statement ∈ result.statements.toList, ¬ statement.Covers token.start
    else token.isTrivia = false → CoveredOnce result.statements.toList token.start
  /-- Every token starts at a character of the script. -/
  start : ∀ token ∈ tokens, ∃ front c back, script.toList = front ++ c :: back ∧
    token.start = Position.start.advanceBy front
  /-- Every statement holds a token that is more than trivia. -/
  inhabited : ∀ statement ∈ result.statements.toList,
    ∃ token ∈ tokens, token.isTrivia = false ∧ statement.Covers token.start
  /-- The statements are made by the segments between the cuts, in order. -/
  made : result.statements.toList =
    (segments rules id tokens).filterMap (Segment.statement rules script.toList)
  /-- A segment makes a statement if and only if it holds more than trivia. -/
  makes : ∀ segment ∈ segments rules id tokens,
    (segment.statement rules script.toList).isSome = true ↔
      ∃ token ∈ segment.items, token.isTrivia = false

section Tiles

variable (rules : Rules) {script : String} {tiles : List Tile} (h : Tiling Position.start tiles)

include h

theorem tiling_segments : Tiling Position.start (tilesIn (segments rules Tile.token tiles)) := by
  rw [tilesIn, flatMap_all_segments]
  exact h

/-- The statements stand in the script one after another. -/
theorem laid_splitTiles (hText : textOf tiles = script.toList) :
    Laid Position.start script.toList (splitTiles rules tiles).statements.toList := by
  have hLaid := laid_statements rules (tiling_segments rules h)
  rw [tilesIn, flatMap_all_segments, hText] at hLaid
  rw [statements_splitTiles]
  exact hLaid

/-- Every statement is an excerpt of a segment. -/
theorem excerpt_of_mem_statements {statement : Statement}
    (hStatement : statement ∈ (splitTiles rules tiles).statements.toList) :
    ∃ segment ∈ segments rules Tile.token tiles, ∃ before lead body trail,
      Excerpt rules (Position.start.advanceBy before) segment statement lead body trail ∧
        Tiling (Position.start.advanceBy before) segment.items := by
  rw [statements_splitTiles] at hStatement
  obtain ⟨segment, hSegment, hCut⟩ := List.mem_filterMap.mp hStatement
  obtain ⟨before, hItems⟩ := tiling_items_of_mem (tiling_segments rules h) hSegment
  obtain ⟨lead, body, trail, hExcerpt⟩ := Segment.excerpt_of_cutOut hItems hCut
  exact ⟨segment, hSegment, before, lead, body, trail, hExcerpt, hItems⟩

/-- A token is in no statement if it is cut at, and in exactly one if it is not and says something.
-/
theorem covered_splitTiles {front back : List Tile} {tile : Tile}
    (hTiles : tiles = front ++ tile :: back) :
    if (contextAfter rules Context.empty (front.map Tile.token)).cuts tile.token then
      ∀ statement ∈ (splitTiles rules tiles).statements.toList,
        ¬ statement.Covers tile.token.start
    else tile.token.isTrivia = false →
      CoveredOnce (splitTiles rules tiles).statements.toList tile.token.start := by
  have hParts := tiling_segments rules h
  rw [statements_splitTiles]
  subst hTiles
  split
  · next hCuts => exact not_covered_of_endsAfter hParts (segments_endsAfter rules _ back hCuts)
  · next hCuts => exact coveredOnce_of_liesAfter hParts (segments_liesAfter rules _ back hCuts)

theorem start_mem_tiles (hText : textOf tiles = script.toList) {tile : Tile}
    (hTile : tile ∈ tiles) :
    ∃ front c back, script.toList = front ++ c :: back ∧
      tile.token.start = Position.start.advanceBy front := by
  obtain ⟨c, taken, hSource⟩ := List.exists_cons_of_ne_nil (h.genuine hTile).ne_nil
  obtain ⟨front, back, rfl⟩ := List.append_of_mem hTile
  refine ⟨textOf front, c, taken ++ textOf back, ?_, h.start_eq⟩
  rw [← hText, textOf_append, textOf_cons, hSource]
  rfl

/-- Every statement has a token in it that is neither a blank nor a comment, namely its first. -/
theorem inhabited_splitTiles {statement : Statement}
    (hStatement : statement ∈ (splitTiles rules tiles).statements.toList) :
    ∃ tile ∈ tiles, tile.token.isTrivia = false ∧ statement.Covers tile.token.start := by
  obtain ⟨segment, hSegment, before, lead, body, trail, hExcerpt, hItems⟩ :=
    excerpt_of_mem_statements rules h hStatement
  obtain ⟨tile, rest, rfl, hTrivia⟩ := hExcerpt.first
  have hMem : tile ∈ tilesIn (segments rules Tile.token tiles) :=
    List.mem_flatMap.mpr ⟨segment, hSegment, by simp [Segment.all, hExcerpt.items]⟩
  rw [tilesIn, flatMap_all_segments] at hMem
  exact ⟨tile, hMem, hTrivia, hExcerpt.covers hItems hExcerpt.items hTrivia⟩

/-- What the tiles of a script say comes out verbatim. -/
theorem verbatim_splitTiles (hText : textOf tiles = script.toList) :
    Verbatim rules script (tiles.map Tile.token) (splitTiles rules tiles) := by
  -- Looking the statements up in the script gives those that are cut out of the tiles.
  have hSame := statement_of_mem_segments rules [] h
  rw [List.nil_append, hText] at hSame
  refine ⟨laid_splitTiles rules h hText, ?trimmed, ?covered, ?start, ?inhabited, ?made, ?makes⟩
  case trimmed =>
    intro statement hStatement
    obtain ⟨_, _, _, _, _, _, hExcerpt, _⟩ := excerpt_of_mem_statements rules h hStatement
    exact hExcerpt.trimmed
  case covered =>
    intro front token back hTokens
    obtain ⟨front, others, hTiles, rfl, hOthers⟩ := List.map_eq_append_iff.mp hTokens
    obtain ⟨tile, back, rfl, rfl, -⟩ := List.map_eq_cons_iff.mp hOthers
    have hCovered := covered_splitTiles rules h hTiles
    simpa only [cutAfter_iff] using hCovered
  case start =>
    intro token hToken
    obtain ⟨tile, hTile, rfl⟩ := List.mem_map.mp hToken
    exact start_mem_tiles h hText hTile
  case inhabited =>
    intro statement hStatement
    obtain ⟨tile, hTile, hTrivia, hCovers⟩ := inhabited_splitTiles rules h hStatement
    exact ⟨tile.token, List.mem_map_of_mem hTile, hTrivia, hCovers⟩
  case made =>
    rw [statements_splitTiles, segments_map, List.filterMap_map]
    exact List.filterMap_congr fun segment hSegment => (hSame segment hSegment).symm
  case makes =>
    intro segment hSegment
    rw [segments_map] at hSegment
    obtain ⟨part, hPart, rfl⟩ := List.mem_map.mp hSegment
    obtain ⟨before, hItems⟩ := tiling_items_of_mem (tiling_segments rules h) hPart
    rw [hSame part hPart, Option.isSome_iff_ne_none, ne_eq, Segment.cutOut_eq_none hItems]
    simp [Segment.map]

end Tiles

/-- Splitting a script neither loses anything of it nor makes anything up. -/
theorem split_verbatim {rules : Rules} {script : String} {result : Split}
    (h : split rules script = .ok result) :
    ∃ tokens, tokenize rules (dropByteOrderMark script) = .ok tokens ∧
      Verbatim rules (dropByteOrderMark script) tokens result := by
  obtain ⟨lexemes, hLex, rfl⟩ := lex_of_split h
  obtain ⟨hLexes, hSource⟩ := lexes_of_lex hLex
  refine ⟨_, tokenize_of_lex rules hLex, verbatim_splitTiles rules ?_ ?_⟩
  · exact tiling_ofLexemesAfter rules Position.start false hLexes
  · rw [Tile.textOf_ofLexemesAfter, hSource]

/-- Behind a byte order mark, semicolons in a comment, in a literal over two lines, inside a block
and behind it. Only the last one ends a statement. -/
theorem split_verbatim_blocks :
    ∃ tokens, tokenize Dialect.hsqldb.rules
          (dropByteOrderMark "\ufeffBEGIN -- 1;\n'2\n;'; END ;\n 3 ") = .ok tokens ∧
      Verbatim Dialect.hsqldb.rules
        (dropByteOrderMark "\ufeffBEGIN -- 1;\n'2\n;'; END ;\n 3 ") tokens
        ⟨#[⟨"BEGIN -- 1;\n'2\n;'; END", ⟨1, 1⟩, 2, 1, true⟩, ⟨"3", ⟨4, 2⟩, 0, 0, false⟩], #[]⟩ := by
  have hSplit : split Dialect.hsqldb.rules "\ufeffBEGIN -- 1;\n'2\n;'; END ;\n 3 " =
      .ok ⟨#[⟨"BEGIN -- 1;\n'2\n;'; END", ⟨1, 1⟩, 2, 1, true⟩, ⟨"3", ⟨4, 2⟩, 0, 0, false⟩],
        #[]⟩ := by
    decide +kernel
  exact split_verbatim hSplit

end SqlScript
