import SqlScript.Proofs.Lexeme.Seam
import SqlScript.Proofs.Split.Excerpt

/-!
# Scripts after each other

A script that ends with a terminator that is cut at leaves nothing behind for the script after it:
no lexeme reaches over the terminator, no word is qualified across it, and the context is a new
one. The scripts are split as if each stood alone, except that the positions of the second one are
moved on by the text of the first.

Moving positions on is followed through the work like this: one token, all tokens of a statement,
the segments, the split.

## Results

* `advanceBy_eq_shift`   — positions behind some characters are the positions without them, moved.
* `splitTiles_shift`     — moved tokens are split into moved statements.
* `splitTiles_append`    — at a terminator that is cut at, the work falls apart.
* `lex_append`           — a script is cut into lexemes as before after a terminator.
* `split_append`         — scripts after each other are split one by one.
-/

namespace SqlScript

/-! ## Moved positions -/

/-- The position after some characters are put in front of the script. -/
def Position.shift (front : List Char) (position : Position) : Position :=
  let lines := front.count '\n'
  let columns := (front.reverse.takeWhile (· ≠ '\n')).length
  if position.line = 1 then ⟨position.line + lines, position.column + columns⟩
  else ⟨position.line + lines, position.column⟩

namespace Position

/-- One more character is counted the same before the text is put in front and after. -/
theorem shift_advance (front : List Char) {position : Position} (h : 1 ≤ position.line) (c : Char) :
    (position.shift front).advance c = (position.advance c).shift front := by
  -- Only on the first line the column is moved, and a newline leads away from it.
  by_cases hNewline : c = '\n'
  · simp only [shift, advance, hNewline, if_true]
    split
    · rw [if_neg (by omega)]
      simp only [mk.injEq, and_true]
      omega
    · rw [if_neg (by omega)]
      simp only [mk.injEq, and_true]
      omega
  · simp only [shift, advance, hNewline, if_false]
    split
    · simp only [mk.injEq, true_and]
      omega
    · rfl

theorem one_le_line_advance {position : Position} (h : 1 ≤ position.line) (c : Char) :
    1 ≤ (position.advance c).line := by
  unfold advance
  split
  · exact Nat.le_add_left 1 position.line
  · exact h

/-- Lines are counted from one. -/
theorem one_le_line_advanceBy {position : Position} (h : 1 ≤ position.line)
    (chars : List Char) : 1 ≤ (position.advanceBy chars).line := by
  induction chars generalizing position with
  | nil => exact h
  | cons c rest ih => exact ih (one_le_line_advance h c)

/-- Moving on by characters and moving a position by the text in front of it can be exchanged. -/
theorem shift_advanceBy (front : List Char) {position : Position} (h : 1 ≤ position.line)
    (chars : List Char) :
    (position.shift front).advanceBy chars = (position.advanceBy chars).shift front := by
  induction chars generalizing position with
  | nil => rfl
  | cons c rest ih =>
    rw [advanceBy_cons, advanceBy_cons, shift_advance front h, ih (one_le_line_advance h c)]

/-- From the start of a script, a text moves on as far as the start is moved by it. -/
theorem advanceBy_start (front : List Char) : start.advanceBy front = start.shift front := by
  induction front using List.reverseRecOn with
  | nil => rfl
  | append_singleton front c ih =>
    rw [advanceBy_append, ih]
    by_cases hNewline : c = '\n'
    · simp [shift, start, advance, hNewline]
      omega
    · simp [shift, start, advance, hNewline]
      omega

end Position

/-- Positions behind some characters are the positions without them, moved on. -/
theorem advanceBy_eq_shift (front chars : List Char) :
    Position.start.advanceBy (front ++ chars) = (Position.start.advanceBy chars).shift front := by
  rw [Position.advanceBy_append, Position.advanceBy_start]
  exact Position.shift_advanceBy front (Nat.le_refl 1) chars

/-- Splits are the same if they list the same statements and the same diagnostics. -/
theorem Split.ext_toList {first second : Split}
    (hStatements : first.statements.toList = second.statements.toList)
    (hDiagnostics : first.diagnostics.toList = second.diagnostics.toList) : first = second := by
  obtain ⟨statements, diagnostics⟩ := first
  rw [mk.injEq]
  exact ⟨Array.toList_inj.mp hStatements, Array.toList_inj.mp hDiagnostics⟩

/-! ## Moved tokens -/

def Token.shift (front : List Char) (token : Token) : Token :=
  { token with start := token.start.shift front }

def Tile.shift (front : List Char) (tile : Tile) : Tile :=
  { tile with token := tile.token.shift front }

def Diagnostic.shift (front : List Char) : Diagnostic → Diagnostic
  | unmatchedEnd position => unmatchedEnd (position.shift front)
  | unclosedBlock position depth => unclosedBlock (position.shift front) depth

def Statement.shift (front : List Char) (statement : Statement) : Statement :=
  { statement with start := statement.start.shift front }

def Context.shift (front : List Char) (context : Context) : Context :=
  { context with pending := context.pending.map (Diagnostic.shift front) }

/-- The split of a script that other characters are put in front of. -/
def Split.shift (front : List Char) (split : Split) : Split :=
  ⟨split.statements.map (Statement.shift front), split.diagnostics.map (Diagnostic.shift front)⟩

section Shift

variable (rules : Rules) (front : List Char)

/-- The tiles of a text that starts further on are its tiles, moved. -/
theorem Tile.ofLexemesAfter_shift {position : Position} (h : 1 ≤ position.line)
    (afterPeriod : Bool) (lexemes : List Lexeme) :
    ofLexemesAfter rules (position.shift front) afterPeriod lexemes =
      (ofLexemesAfter rules position afterPeriod lexemes).map (Tile.shift front) := by
  induction lexemes generalizing position afterPeriod with
  | nil => rfl
  | cons lexeme rest ih =>
    have hLine : 1 ≤ (position.advanceBy lexeme.source).line :=
      Position.one_le_line_advanceBy h lexeme.source
    rw [ofLexemesAfter, ofLexemesAfter, List.map_cons, Position.shift_advanceBy front h, ih hLine]
    rfl

/-- A context only looks at what a token is, and keeps its place for the diagnostics alone. -/
theorem Context.feed_shift (context : Context) (token : Token) :
    (context.shift front).feed rules (token.shift front) =
      (context.feed rules token).shift front := by
  unfold feed
  by_cases hKeyword : token.isKeyword = true
  · rw [if_pos (by exact hKeyword), if_pos hKeyword]
    unfold record
    -- Neither the effect nor the question whether it underflows looks at the places.
    have hDelta : (context.shift front).delta rules (token.shift front) =
        context.delta rules token := rfl
    have hUnderflow : ∀ delta, (context.shift front).underflows delta =
        context.underflows delta := fun _ => rfl
    simp only [hDelta, hUnderflow]
    unfold shift
    cases context.underflows (context.delta rules token)
    · rfl
    · simp [Diagnostic.shift, Token.shift]
  · rw [if_neg (by exact hKeyword), if_neg hKeyword]

/-- So a context is fed with moved tokens as it is with the tokens, and its diagnostics are moved.
-/
theorem Context.feedAll_shift (context : Context) (tokens : List Token) :
    (context.shift front).feedAll rules (tokens.map (Token.shift front)) =
      (context.feedAll rules tokens).shift front := by
  induction tokens generalizing context with
  | nil => rfl
  | cons token rest ih => rw [List.map_cons, feedAll_cons, feed_shift, ih, feedAll_cons]

/-- None of the moved tokens is cut at exactly if none of the tokens is. -/
theorem Context.uncut_shift (context : Context) (tokens : List Token) :
    (context.shift front).Uncut rules (tokens.map (Token.shift front)) ↔
      context.Uncut rules tokens := by
  induction tokens generalizing context with
  | nil => exact Iff.rfl
  | cons token rest ih =>
    rw [List.map_cons, Uncut, Uncut, feed_shift, ih]
    rfl

theorem Context.shift_empty : Context.empty.shift front = .empty := by
  simp [shift, empty]

/-- A moved statement ends at its moved terminator. -/
theorem cut_shift {body : List Token} {mark : Token} (h : Cut rules body mark) :
    Cut rules (body.map (Token.shift front)) (mark.shift front) := by
  constructor
  · have hUncut := (Context.uncut_shift rules front Context.empty body).mpr h.uncut
    rw [Context.shift_empty] at hUncut
    exact hUncut
  · have hFeed := Context.feedAll_shift rules front Context.empty body
    rw [Context.shift_empty] at hFeed
    rw [hFeed]
    exact h.cuts

theorem tokens_shift (tiles : List Tile) :
    (tiles.map (Tile.shift front)).map Tile.token =
      (tiles.map Tile.token).map (Token.shift front) := by
  simp [Function.comp_def, Tile.shift]

/-- Moved tokens fall into the same segments. -/
theorem segments_shift (tiles : List Tile) :
    segments rules Tile.token (tiles.map (Tile.shift front)) =
      (segments rules Tile.token tiles).map (Segment.map (Tile.shift front)) := by
  induction tiles using cut_induction rules Tile.token with
  | last tiles h =>
    have hUncut := (Context.uncut_shift rules front Context.empty _).mpr h
    rw [Context.shift_empty, ← tokens_shift] at hUncut
    rw [segments_uncut h, segments_uncut hUncut]
    rfl
  | cut body mark rest h ih =>
    have hCut := cut_shift rules front h
    rw [← tokens_shift] at hCut
    rw [segments_cut h, List.map_append, List.map_cons, segments_cut hCut, ih]
    rfl

/-! ## Moved segments -/

@[simp] theorem textOf_shift (tiles : List Tile) :
    textOf (tiles.map (Tile.shift front)) = textOf tiles := by
  simp [textOf, Function.comp_def, Tile.shift]

/-- The tiles between the blanks at both ends are the same. -/
theorem core_shift (tiles : List Tile) :
    core (tiles.map (Tile.shift front)) = (core tiles).map (Tile.shift front) := by
  unfold core
  rw [List.dropWhile_map]
  rfl

theorem opening_shift (tokens : List Token) :
    opening (tokens.map (Token.shift front)) = (opening tokens).map (Position.shift front) := by
  unfold opening
  rw [List.find?_map, Option.map_map, Option.map_map]
  rfl

theorem Segment.context_shift (segment : Segment Token) :
    (segment.map (Token.shift front)).context rules = (segment.context rules).shift front := by
  have hFeed := Context.feedAll_shift rules front Context.empty segment.items
  rw [Context.shift_empty] at hFeed
  exact hFeed

/-- An open block at the end is reported in the moved place, with the same depth. -/
theorem Segment.unclosed_shift (segment : Segment Token) :
    (segment.map (Token.shift front)).unclosed rules =
      (segment.unclosed rules).map fun place => (place.1.shift front, place.2) := by
  have hDepth : ((segment.context rules).shift front).depth = (segment.context rules).depth := rfl
  unfold unclosed
  simp only [context_shift, items_map, opening_shift, terminator_map, Option.map_eq_none_iff,
    hDepth]
  split
  · rw [Option.map_map, Option.map_map]
    rfl
  · rfl

theorem Segment.token_shift (segment : Segment Tile) :
    (segment.map (Tile.shift front)).map Tile.token =
      (segment.map Tile.token).map (Token.shift front) := by
  simp [map, Function.comp_def, Tile.shift]

/-- A moved segment is cut out to the same statement in its moved place. -/
theorem Segment.cutOut_shift (segment : Segment Tile) :
    (segment.map (Tile.shift front)).cutOut rules =
      (segment.cutOut rules).map (Statement.shift front) := by
  have hTerminated : (segment.map (Tile.shift front)).terminator.isSome =
      segment.terminator.isSome := Option.isSome_map
  unfold cutOut
  rw [items_map, core_shift, textOf_shift, token_shift, context_shift, hTerminated]
  -- Only the first tile of the core has a place that goes into the statement.
  cases hCore : core segment.items with
  | nil => rfl
  | cons first rest =>
    simp only [List.map_cons, List.head?_cons, Option.bind_some]
    unfold Statement.ofPiece
    dsimp only
    split <;> rfl

/-- A moved segment has the same problems in moved places. -/
theorem Segment.diagnostics_shift (segment : Segment Tile) :
    ((segment.map (Tile.shift front)).tileReport rules).diagnostics.toList =
      (segment.tileReport rules).diagnostics.toList.map (Diagnostic.shift front) := by
  unfold tileReport reportWith
  rw [token_shift, context_shift, unclosed_shift]
  cases (segment.map Tile.token).unclosed rules <;> simp [Context.shift, Diagnostic.shift]

theorem splitTiles_shift (tiles : List Tile) :
    splitTiles rules (tiles.map (Tile.shift front)) = (splitTiles rules tiles).shift front := by
  apply Split.ext_toList
  · simp only [Split.shift, Array.toList_map, statements_splitTiles, segments_shift,
      List.filterMap_map, Function.comp_def, Segment.cutOut_shift, List.map_filterMap]
  · simp only [Split.shift, Array.toList_map, diagnostics_splitTiles, segments_shift,
      List.flatMap_map, Segment.diagnostics_shift, List.map_flatMap]

end Shift

/-! ## Work in two parts -/

/-- The split of one part of a script and then another. -/
def Split.append (first second : Split) : Split :=
  ⟨first.statements ++ second.statements, first.diagnostics ++ second.diagnostics⟩

section Parts

variable {α : Type} {rules : Rules} {token : α → Token}

/-- Up to a terminator that is cut at, the segments do not depend on what comes after it. -/
theorem segmentsFrom_append {context : Context} {front : List α} {mark : α}
    (h : (contextAfter rules context (front.map token)).cuts (token mark)) :
    ∃ first parts, ∀ back, segmentsFrom rules token context (front ++ mark :: back) =
      first :: parts ++ segments rules token back := by
  -- An item in front is a cut by itself or goes to the first segment. What is behind the mark
  -- starts with a new context either way.
  induction front generalizing context with
  | nil =>
    refine ⟨⟨[], some mark⟩, [], fun back => ?_⟩
    rw [List.nil_append, segmentsFrom, if_pos (by exact h)]
    rfl
  | cons item front ih =>
    rw [List.map_cons, contextAfter] at h
    obtain ⟨first, parts, hParts⟩ := ih h
    by_cases hCuts : context.cuts (token item)
    · refine ⟨⟨[], some item⟩, first :: parts, fun back => ?_⟩
      rw [if_pos hCuts] at hParts
      rw [List.cons_append, segmentsFrom, if_pos hCuts, hParts]
      rfl
    · refine ⟨first.push item, parts, fun back => ?_⟩
      rw [if_neg hCuts] at hParts
      rw [List.cons_append, segmentsFrom, if_neg hCuts, hParts]
      rfl

/-- What is reported of the segments falls into two parts there, if there is nothing to report of no
items. -/
theorem concat_segments_append {front : List α} {mark : α}
    (h : (contextAfter rules Context.empty (front.map token)).cuts (token mark))
    {report : Segment α → Report} (hNothing : report ⟨[], none⟩ = .empty) (back : List α) :
    Report.concat ((segments rules token (front ++ mark :: back)).map report) =
      .concat ((segments rules token (front ++ [mark])).map report) ++
        .concat ((segments rules token back).map report) := by
  obtain ⟨first, parts, hParts⟩ := segmentsFrom_append h
  have hFront : Report.concat ((segments rules token (front ++ [mark])).map report) =
      .concat ((first :: parts).map report) := by
    -- Behind the mark there is a segment without items.
    have hRest : Report.concat ((segments rules token []).map report) = .empty := by
      show report ⟨[], none⟩ ++ Report.empty = _
      rw [hNothing, Report.append_empty]
    rw [segments, hParts, List.map_append, Report.concat_append, hRest, Report.append_empty]
  rw [hFront, segments, hParts, List.map_append, Report.concat_append]

/-- At a terminator that is cut at, the work falls into two parts. -/
theorem splitTiles_append {front : List Tile} {mark : Tile}
    (h : (contextAfter rules Context.empty (front.map Tile.token)).cuts mark.token)
    (back : List Tile) :
    splitTiles rules (front ++ mark :: back) =
      (splitTiles rules (front ++ [mark])).append (splitTiles rules back) :=
  congrArg Report.split (concat_segments_append h rfl back)

end Parts

/-! ## Lexemes after a terminator -/

theorem readLexeme_semicolon (rest : List Char) :
    readLexeme ';' rest = .ok (.verbatim .terminator [';']) := rfl

theorem stops_semicolon (rest : List Char) : Stops (';' :: rest) := stops_cons.mpr rfl

/-- A terminator is the semicolon, whatever comes after it. -/
theorem lexes_terminator {mark : Lexeme} {after : List Char} (h : Lexes [mark] after)
    (hMark : mark.kind = .terminator) :
    mark = .verbatim .terminator [';'] ∧ ∀ after', Lexes [mark] after' := by
  obtain ⟨⟨c, taken, hSource, hRead⟩, -⟩ := h
  have hSemicolon := (readLexeme_readFrom hRead).terminator hMark
  rw [hSource] at hSemicolon
  obtain ⟨rfl, rfl⟩ := List.cons.inj hSemicolon
  rw [readLexeme_semicolon] at hRead
  have hVerbatim := (Except.ok.inj hRead).symm
  refine ⟨hVerbatim, fun after' => ⟨⟨';', [], hSource, ?_⟩, trivial⟩⟩
  rw [hVerbatim]
  exact readLexeme_semicolon _

/-- After a terminator a script is cut into lexemes as if nothing stood before it. -/
theorem lex_append {script : List Char} {front : List Lexeme} {mark : Lexeme}
    (h : lex script = ⟨front ++ [mark], none⟩) (hMark : mark.kind = .terminator)
    (rest : List Char) :
    lex (script ++ rest) = ⟨front ++ mark :: (lex rest).lexemes, (lex rest).fault⟩ := by
  obtain ⟨hLexes, hSource⟩ := lexes_of_lex h
  obtain ⟨hFront, hLast⟩ := lexes_append.mp hLexes
  obtain ⟨rfl, hEvery⟩ := lexes_terminator hLast hMark
  -- The seam is the terminator itself, which stays where it is.
  have hSeam : Lexes front (';' :: rest) :=
    lexes_append_stops (stops_semicolon []) (stops_semicolon rest) rfl hFront
  have hBoth : Lexes (front ++ [.verbatim .terminator [';']]) rest :=
    lexes_append.mpr ⟨hSeam, hEvery rest⟩
  have hLex := lex_of_lexes hBoth
  rw [hSource] at hLex
  rw [hLex, List.append_assoc]
  rfl

/-! ## Scripts after each other -/

theorem toList_dropByteOrderMark (script : String) :
    (dropByteOrderMark script).toList =
      if script.toList.head? = some '\ufeff' then script.toList.tail else script.toList := by
  unfold dropByteOrderMark
  split
  · next rest hScript => simp [hScript]
  · next hOther =>
    rw [if_neg]
    intro hHead
    obtain ⟨rest, hScript⟩ := List.head?_eq_some_iff.mp hHead
    exact hOther rest hScript

theorem dropByteOrderMark_of_head? {script : String}
    (h : script.toList.head? ≠ some '\ufeff') : dropByteOrderMark script = script := by
  rw [← String.toList_inj, toList_dropByteOrderMark, if_neg h]

/-- If something is left of the first of two scripts, a byte order mark is only taken from that
one. -/
theorem dropByteOrderMark_append {first : String} (h : (dropByteOrderMark first).toList ≠ [])
    (second : String) :
    (dropByteOrderMark (first ++ second)).toList =
      (dropByteOrderMark first).toList ++ second.toList := by
  rw [toList_dropByteOrderMark] at h ⊢
  rw [toList_dropByteOrderMark, String.toList_append]
  cases hFirst : first.toList with
  | nil =>
    rw [hFirst] at h
    exact absurd rfl h
  | cons c rest =>
    by_cases hMark : c = '\ufeff' <;> simp [hMark]

/-- The last token of a script is a terminator that is cut at. -/
def EndsInCut (rules : Rules) (script : String) : Prop :=
  ∃ tokens, tokenize rules script = .ok tokens ∧ CutLast rules script tokens

/-- What that means for the lexemes of the script. -/
theorem EndsInCut.exists_lexemes {rules : Rules} {script : String} (h : EndsInCut rules script) :
    ∃ front mark, lex script.toList = ⟨front ++ [mark], none⟩ ∧ mark.kind = .terminator ∧
      (contextAfter rules Context.empty ((tilesOf rules front).map Tile.token)).atBoundary =
        true := by
  obtain ⟨tokens, hTokens, front, mark, rfl, hCut⟩ := h
  obtain ⟨hMark, hBoundary⟩ := cutAfter_iff.mp hCut
  obtain ⟨lexemes, hLex, hAll⟩ := lexes_of_tokenize hTokens
  rw [Token.ofLexemes, ← Tile.map_token_ofLexemesAfter] at hAll
  -- The last token is the last tile, and its lexeme is the last one of the script.
  obtain ⟨front, last, hTiles, rfl, hLast⟩ := List.map_eq_append_iff.mp hAll.symm
  obtain ⟨tile, rfl, rfl⟩ := List.map_eq_singleton_iff.mp hLast
  obtain ⟨hLexemes, -, hFront⟩ := Tile.ofLexemesAfter_eq_append hTiles
  have hMem : tile ∈ Tile.ofLexemesAfter rules Position.start false lexemes := by
    rw [hTiles]
    simp
  have hKind : tile.lexeme.kind = .terminator := by
    simpa [Tile.isTerminator_of_mem hMem] using hMark
  refine ⟨front.map Tile.lexeme, tile.lexeme, ?_, hKind, ?_⟩
  · rw [hLex, hLexemes]
    rfl
  · rw [tilesOf, ← hFront (by simp [Lexeme.isPeriod, hKind])]
    exact hBoundary

/-- Tiles behind a terminator are those of the rest of the script, moved on. -/
theorem tilesOf_append (rules : Rules) (front : List Lexeme) {mark : Lexeme}
    (hMark : mark.kind = .terminator) :
    ∃ tile : Tile, tile.token.isTerminator = true ∧ ∀ back,
      tilesOf rules (front ++ mark :: back) =
        tilesOf rules front ++
          tile :: (tilesOf rules back).map (Tile.shift (sourceOf (front ++ [mark]))) := by
  refine ⟨⟨mark, .ofLexeme rules (Position.start.advanceBy (sourceOf front)) false mark⟩, ?_,
    fun back => ?_⟩
  · rw [Token.isTerminator_ofLexeme, decide_eq_true_eq]
    exact hMark
  · have hPeriod : (mark :: back).head?.any Lexeme.isPeriod = false := by
      simp [Lexeme.isPeriod, hMark]
    have hNot : mark.isPeriod = false := by
      simp [Lexeme.isPeriod, hMark]
    -- No period is next to the terminator, so on either side the tiles are as if the script was cut
    -- off.
    have hBack := Tile.ofLexemesAfter_shift rules (sourceOf (front ++ [mark]))
      (Nat.le_refl Position.start.line) false back
    rw [tilesOf, Tile.ofLexemesAfter_append rules _ _ front hPeriod, Tile.ofLexemesAfter, hNot,
      Token.ofLexeme_of_kind rules _ _ (by rw [hMark]; decide) false, ← Position.advanceBy_append,
      ← hBack, ← Position.advanceBy_start, sourceOf_append, sourceOf_cons, sourceOf_nil,
      List.append_nil]

/-- The split of lexemes with a terminator that is cut at falls into two parts. -/
theorem splitTiles_tilesOf_append (rules : Rules) {front : List Lexeme} {mark : Lexeme}
    (hMark : mark.kind = .terminator)
    (hBoundary : (contextAfter rules Context.empty
      ((tilesOf rules front).map Tile.token)).atBoundary = true) (back : List Lexeme) :
    splitTiles rules (tilesOf rules (front ++ mark :: back)) =
      (splitTiles rules (tilesOf rules (front ++ [mark]))).append
        ((splitTiles rules (tilesOf rules back)).shift (sourceOf (front ++ [mark]))) := by
  obtain ⟨tile, hTerminator, hTiles⟩ := tilesOf_append rules front hMark
  have hOne := hTiles []
  rw [hTiles back, splitTiles_append ⟨hTerminator, hBoundary⟩, splitTiles_shift, hOne]
  rfl

/-- Scripts after each other are split one by one, if the first one ends with a terminator that is
cut at. -/
theorem split_append {rules : Rules} {first second : String} {result : Split}
    (hFirst : split rules first = .ok result) (hCut : EndsInCut rules (dropByteOrderMark first))
    (hSecond : second.toList.head? ≠ some '\ufeff') :
    (∀ others, split rules second = .ok others →
      split rules (first ++ second) =
        .ok (result.append (others.shift (dropByteOrderMark first).toList))) ∧
    (∀ position detail, split rules second = .error (.untokenizable position detail) →
      split rules (first ++ second) =
        .error (.untokenizable (position.shift (dropByteOrderMark first).toList) detail)) := by
  obtain ⟨front, mark, hLex, hMark, hBoundary⟩ := hCut.exists_lexemes
  have hSource : sourceOf (front ++ [mark]) = (dropByteOrderMark first).toList :=
    (lexes_of_lex hLex).2
  -- There is a terminator, so the mark at the front of both is the one of the first script.
  have hNonempty : (dropByteOrderMark first).toList ≠ [] := by
    intro hNil
    rw [hNil, lex_nil] at hLex
    simp at hLex
  have hBoth := lex_append hLex hMark second.toList
  rw [← dropByteOrderMark_append hNonempty] at hBoth
  rw [split_of_lex rules hLex] at hFirst
  constructor
  · -- Without a fault both splits are made of the lexemes.
    intro others hOthers
    obtain ⟨back, hBack, rfl⟩ := lex_of_split hOthers
    rw [dropByteOrderMark_of_head? hSecond] at hBack
    rw [hBack] at hBoth
    have hSplit := split_of_lex rules hBoth
    rw [splitTiles_tilesOf_append rules hMark hBoundary, hSource, Except.ok.inj hFirst] at hSplit
    exact hSplit
  · -- A fault of the second script is the fault of both, and it lies behind the first one.
    intro position detail hError
    cases hBack : lex second.toList with
    | mk back fault =>
      rw [← dropByteOrderMark_of_head? hSecond] at hBack
      cases fault with
      | none =>
        rw [split_of_lex rules hBack] at hError
        cases hError
      | some fault =>
        rw [split_of_fault rules hBack] at hError
        cases hError
        rw [dropByteOrderMark_of_head? hSecond] at hBack
        rw [hBack] at hBoth
        have hPosition : Position.start.advanceBy
            (sourceOf (front ++ mark :: back) ++ fault.before) =
              (Position.start.advanceBy (sourceOf back ++ fault.before)).shift
                (dropByteOrderMark first).toList := by
          rw [← advanceBy_eq_shift, ← hSource]
          simp
        rw [split_of_fault rules hBoth, hPosition]

/-- A block over two lines behind a byte order mark, in front of a script with two problems and of
one that cannot be cut into tokens. -/
theorem split_append_blocks :
    split Dialect.hsqldb.rules ("\ufeffBEGIN 1;\n2 END;" ++ "END;\nBEGIN ;") =
        .ok ⟨#[⟨"BEGIN 1;\n2 END", ⟨1, 1⟩, 2, 1, true⟩, ⟨"END", ⟨2, 7⟩, 1, 0, true⟩,
            ⟨"BEGIN ;", ⟨3, 1⟩, 1, 1, false⟩],
          #[.unmatchedEnd ⟨2, 7⟩, .unclosedBlock ⟨3, 1⟩ 1]⟩ ∧
      split Dialect.hsqldb.rules ("\ufeffBEGIN 1;\n2 END;" ++ "END 'c") =
        .error (.untokenizable ⟨2, 11⟩ "Unterminated string literal") := by
  have hFirst : split Dialect.hsqldb.rules "\ufeffBEGIN 1;\n2 END;" =
      .ok ⟨#[⟨"BEGIN 1;\n2 END", ⟨1, 1⟩, 2, 1, true⟩], #[]⟩ := by decide +kernel
  have hTokens : tokenize Dialect.hsqldb.rules (dropByteOrderMark "\ufeffBEGIN 1;\n2 END;") =
      .ok ([⟨"BEGIN", .keyword, ⟨1, 1⟩⟩, ⟨" ", .whitespace, ⟨1, 6⟩⟩, ⟨"1", .literal, ⟨1, 7⟩⟩,
        ⟨";", .terminator, ⟨1, 8⟩⟩, ⟨"\n", .whitespace, ⟨1, 9⟩⟩, ⟨"2", .literal, ⟨2, 1⟩⟩,
        ⟨" ", .whitespace, ⟨2, 2⟩⟩, ⟨"END", .keyword, ⟨2, 3⟩⟩] ++
        [⟨";", .terminator, ⟨2, 6⟩⟩]) := by
    decide +kernel
  -- The first script ends behind its block, so its last terminator is cut at.
  have hCut : EndsInCut Dialect.hsqldb.rules (dropByteOrderMark "\ufeffBEGIN 1;\n2 END;") :=
    ⟨_, hTokens, _, _, rfl, by decide +kernel⟩
  have hSecond : split Dialect.hsqldb.rules "END;\nBEGIN ;" =
      .ok ⟨#[⟨"END", ⟨1, 1⟩, 1, 0, true⟩, ⟨"BEGIN ;", ⟨2, 1⟩, 1, 1, false⟩],
        #[.unmatchedEnd ⟨1, 1⟩, .unclosedBlock ⟨2, 1⟩ 1]⟩ := by decide +kernel
  have hOpen : split Dialect.hsqldb.rules "END 'c" =
      .error (.untokenizable ⟨1, 5⟩ "Unterminated string literal") := by decide +kernel
  constructor
  · exact ((split_append hFirst hCut (by decide)).1 _ hSecond).trans (by decide +kernel)
  · exact ((split_append hFirst hCut (by decide)).2 _ _ hOpen).trans (by decide +kernel)

end SqlScript
