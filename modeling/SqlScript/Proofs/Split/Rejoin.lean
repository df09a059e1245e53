import SqlScript.Proofs.Split.Taken

/-!
# Statements joined and split again

Statements that were taken from scripts are written one after the other, each two with a terminator
on a line of its own between them. The outcome is a script that is split into the same statements:
`Split.Returns` says what is the same.

The proof goes along the list of the statements. Each text is spelled again in front of the newline
that follows it, or at the end (`Taken.exists_respelling`); it makes one segment, as it has done in
its own script (`Taken.Spelling.returns`); and at the terminator behind it the work falls apart, so
that the others can be looked at as if they stood alone.

## Results

* `Taken.Spelling.returns` — a text that is spelled again is split into its statement.
* `exists_lex_rejoined`    — the lexemes of all texts joined, and what they are split into.
* `split_rejoined`         — joined statements are split into the same statements.
-/

namespace SqlScript

/-! ## What is the same -/

/-- The split has the statements that were taken, some of them terminated, and as many closing
keywords that closed nothing. -/
structure Split.Returns (result : Split) {rules : Rules} (parts : List (Taken rules))
    (terminated : List Bool) : Prop where
  texts : result.statements.toList.map Statement.text = parts.map fun part => part.statement.text
  keywordCounts : result.statements.toList.map Statement.keywordCount =
    parts.map fun part => part.statement.keywordCount
  maxDepths : result.statements.toList.map Statement.maxDepth =
    parts.map fun part => part.statement.maxDepth
  terminated : result.statements.toList.map Statement.terminated = terminated
  unmatched : result.unmatched = (parts.map Taken.unmatched).sum

section Returns

variable {rules : Rules} {parts others : List (Taken rules)} {terminated flags : List Bool}
  {first second : Split}

theorem Split.Returns.append (h : first.Returns parts terminated)
    (h' : second.Returns others flags) :
    (first.append second).Returns (parts ++ others) (terminated ++ flags) := by
  refine ⟨?_, ?_, ?_, ?_, ?_⟩
  · simp [Split.append, h.texts, h'.texts]
  · simp [Split.append, h.keywordCounts, h'.keywordCounts]
  · simp [Split.append, h.maxDepths, h'.maxDepths]
  · simp [Split.append, h.terminated, h'.terminated]
  · have hFirst := h.unmatched
    have hSecond := h'.unmatched
    unfold Split.unmatched at hFirst hSecond ⊢
    simp [Split.append, hFirst, hSecond]

/-- Moving the statements on changes none of this. -/
theorem Split.Returns.shift (h : first.Returns parts terminated) (front : List Char) :
    (first.shift front).Returns parts terminated := by
  -- To be moved does not change what sort of problem it is.
  have hUnmatched : Diagnostic.isUnmatchedEnd ∘ Diagnostic.shift front =
      Diagnostic.isUnmatchedEnd := by
    funext problem
    cases problem <;> rfl
  refine ⟨?_, ?_, ?_, ?_, ?_⟩
  · simpa [Split.shift, Statement.shift, Function.comp_def] using h.texts
  · simpa [Split.shift, Statement.shift, Function.comp_def] using h.keywordCounts
  · simpa [Split.shift, Statement.shift, Function.comp_def] using h.maxDepths
  · simpa [Split.shift, Statement.shift, Function.comp_def] using h.terminated
  · rw [← h.unmatched]
    unfold Split.unmatched Split.shift
    rw [Array.toList_map, List.countP_map, hUnmatched]

end Returns

/-! ## One statement -/

section Statement

variable {rules : Rules} (part : Taken rules)

/-- Before a joint the text of a statement is spelled again. -/
theorem Taken.exists_respelling {joint rest : List Char} (hJoint : Joint joint rest) :
    ∃ lexemes, part.Spelling lexemes ∧ Lexes lexemes rest ∧
      sourceOf lexemes = part.chars ++ joint := by
  obtain ⟨lexemes, after, trail, hSpelling, hLexes, hAfter, hSource, hTrail, hTrimmed⟩ :=
    exists_spelling part
  obtain ⟨again, hAgain, hAgainSource, hEssences, hSolid⟩ :=
    exists_relexed hLexes hAfter hSource hTrail hTrimmed hJoint
  -- The essences are the same, and they are all that a context sees.
  have hContext : contextOf rules again = contextOf rules lexemes := by
    rw [contextOf, contextOf, hEssences]
  refine ⟨again, ⟨hSolid hSpelling.solid, ?_, ?_, ?_, ?_, ?_⟩, hAgain, hAgainSource⟩
  · rw [hEssences]
    exact hSpelling.uncut
  · rw [hContext]
    exact hSpelling.keywordCount
  · rw [hContext]
    exact hSpelling.maxDepth
  · rw [hContext]
    exact hSpelling.unmatched
  · rw [hContext]
    exact hSpelling.depth

variable {part} {lexemes blanks : List Lexeme} (h : part.Spelling lexemes)
  (hBlanks : ∀ blank ∈ blanks, blank.kind = .blank)

include h hBlanks

/-- Behind blanks a spelling takes a context to where it takes it alone, without a cut. -/
theorem Taken.Spelling.alike :
    Context.empty.Uncut rules ((tilesOf rules (blanks ++ lexemes)).map Tile.token) ∧
      (Context.empty.feedAll rules ((tilesOf rules (blanks ++ lexemes)).map Tile.token)).Alike
        (contextOf rules lexemes) := by
  -- Blanks in front have no essence.
  have hEssences : essences ((tilesOf rules (blanks ++ lexemes)).map Tile.token) =
      essencesOf rules false lexemes := by
    rw [tilesOf, Tile.map_token_ofLexemesAfter, essences_ofLexemesAfter,
      essencesOf_blanks_append hBlanks]
  have hEmpty := Context.Alike.refl Context.empty
  constructor
  · rw [hEmpty.uncut_essences, hEssences]
    exact h.uncut
  · unfold contextOf
    rw [← hEssences]
    exact hEmpty.feedAll_essences _

variable {joint : List Char} (hSource : sourceOf lexemes = part.chars ++ joint)
  (hJoint : ∀ c ∈ joint, isBlank c = true)

include hSource hJoint

/-- Cutting the statement out of its segment gives the statement that was taken. -/
theorem Taken.Spelling.cutOut_eq (terminator : Option Tile) :
    ∃ start, Segment.cutOut rules ⟨tilesOf rules (blanks ++ lexemes), terminator⟩ =
      some ⟨part.statement.text, start, part.statement.keywordCount, part.statement.maxDepth,
        terminator.isSome⟩ := by
  obtain ⟨-, -, -, -, -, -, -, -, hTrimmed⟩ := exists_spelling part
  have hTrim : trimChars (part.chars ++ joint) = part.chars := trimChars_append hTrimmed hJoint
  have hAlike := (h.alike hBlanks).2
  have hMap := Tile.map_lexeme_ofLexemesAfter rules Position.start false (blanks ++ lexemes)
  obtain ⟨lead, body, hTiles, rfl, rfl⟩ := List.map_eq_append_iff.mp hMap
  have hTrivia : ∀ tile ∈ lead ++ body, tile.token.isTrivia =
      decide (tile.lexeme.kind = .blank ∨ tile.lexeme.kind = .comment) := by
    rw [← hTiles]
    exact fun tile => Tile.isTrivia_of_mem
  obtain ⟨tile, rest, rfl⟩ : ∃ tile rest, body = tile :: rest := by
    refine List.exists_cons_of_ne_nil fun hNil => hTrimmed.ne_nil ?_
    rw [hNil, List.map_nil, sourceOf_nil] at hSource
    exact (List.append_eq_nil_iff.mp hSource.symm).1
  -- The first lexeme of the text is solid, so the core starts with it.
  have hCore : core (lead ++ tile :: rest) = tile :: rest := by
    have hLead : ∀ tile ∈ lead, tile.token.isTrivia = true := by
      intro tile hTile
      rw [hTrivia tile (List.mem_append_left _ hTile), decide_eq_true_eq]
      exact .inl (hBlanks tile.lexeme (List.mem_map_of_mem hTile))
    have hFirst : tile.token.isTrivia = false := by
      rw [hTrivia tile (by simp), decide_eq_false_iff_not, not_or]
      exact h.solid tile.lexeme rfl
    unfold core
    rw [List.dropWhile_append_of_pos hLead, List.dropWhile_cons_of_neg (by simp [hFirst])]
  have hText : textOf (tile :: rest) = part.chars ++ joint := hSource
  have hNe : trimChars (part.chars ++ joint) ≠ [] := by
    rw [hTrim]
    exact hTrimmed.ne_nil
  refine ⟨tile.token.start, ?_⟩
  unfold Segment.cutOut
  rw [tilesOf, hTiles] at hAlike ⊢
  rw [hCore, hText, List.head?_cons, Option.bind_some, Statement.ofPiece_of_ne_nil hNe, hTrim,
    h.keywordCount, h.maxDepth, ← hAlike.keywords, ← hAlike.maxDepth, Taken.chars,
    String.ofList_toList]
  rfl

/-- A text that is spelled again is split into its statement, whatever the segment ends with. -/
theorem Taken.Spelling.returns {tiles : List Tile} {terminator : Option Tile}
    {empties : List (Segment Tile)}
    (hSegments : segments rules Tile.token tiles =
      ⟨tilesOf rules (blanks ++ lexemes), terminator⟩ :: empties)
    (hEmpties : ∀ segment ∈ empties, segment = ⟨[], none⟩) :
    (splitTiles rules tiles).Returns [part] [terminator.isSome] := by
  obtain ⟨start, hCut⟩ := h.cutOut_eq hBlanks hSource hJoint terminator
  have hNone : empties.filterMap (Segment.cutOut rules) = [] := by
    rw [List.filterMap_eq_nil_iff]
    intro segment hSegment
    rw [hEmpties segment hSegment]
    rfl
  have hStatements : (splitTiles rules tiles).statements.toList =
      [⟨part.statement.text, start, part.statement.keywordCount, part.statement.maxDepth,
        terminator.isSome⟩] := by
    rw [statements_splitTiles, hSegments, List.filterMap_cons, hCut, hNone]
  -- The empty segments report nothing either.
  have hQuiet : empties.flatMap (fun segment => (segment.tileReport rules).diagnostics.toList) =
      [] := by
    rw [List.flatMap_eq_nil_iff]
    intro segment hSegment
    rw [hEmpties segment hSegment]
    rfl
  refine ⟨by rw [hStatements]; rfl, by rw [hStatements]; rfl, by rw [hStatements]; rfl,
    by rw [hStatements]; rfl, ?_⟩
  unfold Split.unmatched
  rw [diagnostics_splitTiles, hSegments, List.flatMap_cons, hQuiet, List.append_nil,
    countP_tileReport, List.map_singleton, List.sum_singleton, h.unmatched]
  exact (h.alike hBlanks).2.pending

end Statement

/-! ## All statements -/

/-- The characters of a newline, a terminator and another newline. -/
abbrev separator : List Char := ['\n', ';', '\n']

section Parts

variable {rules : Rules}

/-- The last text is split into its statement. -/
theorem exists_lex_last (part : Taken rules) {lead : List Char}
    (hLead : lead = [] ∨ lead = ['\n']) :
    ∃ lexemes, lex (lead ++ part.chars) = ⟨lexemes, none⟩ ∧
      (splitTiles rules (tilesOf rules lexemes)).Returns [part] [false] := by
  obtain ⟨blanks, hBlankSource, hBlanks, hBlankLexes⟩ := exists_blanks hLead
  obtain ⟨lexemes, hSpelling, hLexes, hSource⟩ := part.exists_respelling (.inl ⟨rfl, rfl⟩)
  have hBoth : Lexes (blanks ++ lexemes) [] := lexes_append.mpr ⟨hBlankLexes _, hLexes⟩
  have hLex := lex_of_lexes hBoth
  rw [sourceOf_append, hBlankSource, hSource] at hLex
  refine ⟨blanks ++ lexemes, by simpa using hLex, ?_⟩
  exact hSpelling.returns hBlanks hSource nofun
    (segments_uncut (hSpelling.alike hBlanks).1) nofun

/-- A text with a terminator behind it is split into its statement, outside of blocks. -/
theorem exists_lex_terminated (part : Taken rules) (hOpen : ¬ part.IsOpen) {lead : List Char}
    (hLead : lead = [] ∨ lead = ['\n']) :
    ∃ front mark, lex (lead ++ part.chars ++ ['\n', ';']) = ⟨front ++ [mark], none⟩ ∧
      mark.kind = .terminator ∧
      (contextAfter rules Context.empty ((tilesOf rules front).map Tile.token)).atBoundary =
        true ∧
      (splitTiles rules (tilesOf rules (front ++ [mark]))).Returns [part] [true] := by
  obtain ⟨blanks, hBlankSource, hBlanks, hBlankLexes⟩ := exists_blanks hLead
  have hJoint : Joint ['\n'] [';'] := .inr ⟨rfl, stops_semicolon []⟩
  obtain ⟨lexemes, hSpelling, hLexes, hSource⟩ := part.exists_respelling hJoint
  have hBoth : Lexes (blanks ++ lexemes ++ [.verbatim .terminator [';']]) [] :=
    lexes_append.mpr ⟨lexes_append.mpr ⟨hBlankLexes _, hLexes⟩, ⟨⟨';', [], rfl, rfl⟩, trivial⟩⟩
  have hLex := lex_of_lexes hBoth
  obtain ⟨hUncut, hAlike⟩ := hSpelling.alike hBlanks
  have hBoundary : (Context.empty.feedAll rules
      ((tilesOf rules (blanks ++ lexemes)).map Tile.token)).atBoundary = true := by
    unfold Context.atBoundary
    rw [hAlike.depth, hSpelling.depth hOpen]
    rfl
  refine ⟨blanks ++ lexemes, .verbatim .terminator [';'], ?_, rfl, ?_, ?_⟩
  · rw [sourceOf_append, sourceOf_append, hBlankSource, hSource] at hLex
    simpa [Lexeme.verbatim] using hLex
  · rw [contextAfter_of_uncut hUncut]
    exact hBoundary
  · have hKind : (Lexeme.verbatim .terminator [';']).kind = .terminator := rfl
    obtain ⟨tile, hTerminator, hTiles⟩ := tilesOf_append rules (blanks ++ lexemes) hKind
    -- The terminator stands outside of blocks, so there is a cut at it.
    have hCut : Cut rules ((tilesOf rules (blanks ++ lexemes)).map Tile.token) tile.token :=
      ⟨hUncut, hTerminator, hBoundary⟩
    rw [hTiles []]
    exact hSpelling.returns hBlanks hSource (List.all_eq_true.mp rfl) (segments_cut hCut [])
      fun _ => List.mem_singleton.mp

/-- Joined texts are split into their statements, all but the last one terminated. -/
theorem exists_lex_rejoined (first : Taken rules) (others : List (Taken rules))
    (hOpen : ∀ part ∈ (first :: others).dropLast, ¬ part.IsOpen) {lead : List Char}
    (hLead : lead = [] ∨ lead = ['\n']) :
    ∃ lexemes,
      lex (lead ++ separator.intercalate ((first :: others).map Taken.chars)) = ⟨lexemes, none⟩ ∧
      (splitTiles rules (tilesOf rules lexemes)).Returns (first :: others)
        ((others.map fun _ => true) ++ [false]) := by
  -- By induction over the statements. Each but the last ends in a separator, whose newline is the
  -- lead of the next one.
  induction others generalizing first lead with
  | nil =>
    obtain ⟨lexemes, hLex, hReturns⟩ := exists_lex_last first hLead
    exact ⟨lexemes, by simpa using hLex, hReturns⟩
  | cons next others ih =>
    obtain ⟨front, mark, hLex, hMark, hBoundary, hReturns⟩ :=
      exists_lex_terminated first (hOpen first (by simp)) hLead
    obtain ⟨back, hBack, hOthers⟩ := ih next (fun part hPart => hOpen part (by simp [hPart]))
      (.inr rfl)
    have hBoth := lex_append hLex hMark
      (['\n'] ++ separator.intercalate ((next :: others).map Taken.chars))
    rw [hBack] at hBoth
    refine ⟨front ++ mark :: back, ?_, ?_⟩
    · rw [← hBoth]
      simp [separator]
    · rw [splitTiles_tilesOf_append rules hMark hBoundary]
      exact hReturns.append (hOthers.shift _)

/-- Statements that were taken from scripts and joined are split into the same statements: all but
the last one may not have ended inside a block, and the first one may not start like a byte order
mark. -/
theorem split_rejoined (first : Taken rules) (others : List (Taken rules))
    (hOpen : ∀ part ∈ (first :: others).dropLast, ¬ part.IsOpen)
    (hMark : first.chars.head? ≠ some '\ufeff') :
    ∃ result, split rules ("\n;\n".intercalate
        ((first :: others).map fun part => part.statement.text)) = .ok result ∧
      result.Returns (first :: others) ((others.map fun _ => true) ++ [false]) := by
  obtain ⟨lexemes, hLex, hReturns⟩ := exists_lex_rejoined first others hOpen (.inl rfl)
  refine ⟨_, split_of_lex rules ?_, hReturns⟩
  have hScript : ("\n;\n".intercalate
      ((first :: others).map fun part => part.statement.text)).toList =
        separator.intercalate ((first :: others).map Taken.chars) := by
    rw [String.toList_intercalate, List.map_map]
    rfl
  -- The script starts as its first statement does, so no byte order mark is taken off.
  have hHead : (separator.intercalate ((first :: others).map Taken.chars)).head? =
      first.chars.head? := by
    obtain ⟨-, -, -, -, -, -, -, -, hTrimmed⟩ := exists_spelling first
    obtain ⟨c, rest, hFirst⟩ := List.exists_cons_of_ne_nil hTrimmed.ne_nil
    cases others <;> simp [hFirst]
  rw [dropByteOrderMark_of_head?, hScript]
  · exact hLex
  · rw [hScript, hHead]
    exact hMark

/-- A block with a comment behind it, a stray keyword with a sign, and an open block, from two
scripts. The comment takes up the newline behind it, and so does the sign. -/
theorem split_rejoined_blocks :
    ∃ result, split Dialect.hsqldb.rules "BEGIN 1; END -- 2\n;\nEND @\n;\nBEGIN ';'" =
        .ok result ∧
      result.statements.toList.map Statement.text =
        ["BEGIN 1; END -- 2", "END @", "BEGIN ';'"] ∧
      result.statements.toList.map Statement.keywordCount = [2, 1, 1] ∧
      result.statements.toList.map Statement.maxDepth = [1, 0, 1] ∧
      result.statements.toList.map Statement.terminated = [true, true, false] ∧
      result.unmatched = 1 := by
  have hFirst : split Dialect.hsqldb.rules "BEGIN 1; END -- 2 \n; END @ ;" =
      .ok ⟨#[⟨"BEGIN 1; END -- 2", ⟨1, 1⟩, 2, 1, true⟩, ⟨"END @", ⟨2, 3⟩, 1, 0, true⟩],
        #[.unmatchedEnd ⟨2, 3⟩]⟩ := by decide +kernel
  have hSecond : split Dialect.hsqldb.rules ";BEGIN ';' " =
      .ok ⟨#[⟨"BEGIN ';'", ⟨1, 2⟩, 1, 1, false⟩], #[.unclosedBlock ⟨1, 2⟩ 1]⟩ := by decide +kernel
  obtain ⟨result, hSplit, hReturns⟩ := split_rejoined
    ⟨_, _, ⟨"BEGIN 1; END -- 2", ⟨1, 1⟩, 2, 1, true⟩, hFirst, by simp⟩
    [⟨_, _, ⟨"END @", ⟨2, 3⟩, 1, 0, true⟩, hFirst, by simp⟩,
      ⟨_, _, ⟨"BEGIN ';'", ⟨1, 2⟩, 1, 1, false⟩, hSecond, by simp⟩]
    (by simp [Taken.IsOpen]) (by simp [Taken.chars])
  refine ⟨result, hSplit, hReturns.texts, hReturns.keywordCounts, hReturns.maxDepths,
    hReturns.terminated, hReturns.unmatched.trans ?_⟩
  -- The stray keyword lies in the second statement only.
  simp only [Taken.unmatched, List.map_cons, List.map_nil, List.sum_cons, List.sum_nil]
  decide +kernel

end Parts

end SqlScript
