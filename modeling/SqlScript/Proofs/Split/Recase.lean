import Mathlib.Data.List.Forall2
import SqlScript.Proofs.Split.Concat
import SqlScript.Proofs.Split.Problems
import SqlScript.Proofs.Token.Recase

/-!
# Scripts with keywords in another letter case

Reserved words may be written in any letter case. This module takes a script and another one that
differs from it in the case of letters in keywords, though not in those directly behind a literal,
and shows that nothing comes of the difference: the tokens are the same, and so is everything that
is said about the statements. Their texts are cut out at the same places and hold the changed
letters.

`Recased` compares two scripts character by character. The tiles of the first one bring this into
the form that the lexemes can be followed in, `Respelled`.

## Results

* `respelled_of_recased` — the second script stands for the tiles of the first one.
* `split_recased` — both scripts have the same tokens, and they are split alike.
-/

namespace SqlScript

/-! ## Positions as numbers of characters -/

/-- Positions in a script are ordered as the numbers of characters in front of them. -/
theorem Position.before_take_iff {script : List Char} {m n : Nat} (hFirst : m ≤ script.length)
    (hSecond : n ≤ script.length) :
    (start.advanceBy (script.take m)).Before (start.advanceBy (script.take n)) ↔ m < n := by
  -- The longer part is the shorter one and some characters, which move the position on.
  have hSplit : ∀ {m n : Nat}, m ≤ n →
      start.advanceBy (script.take n) =
        (start.advanceBy (script.take m)).advanceBy ((script.drop m).take (n - m)) := by
    intro m n hLe
    rw [← advanceBy_append, ← List.take_add, Nat.add_sub_cancel' hLe]
  constructor
  · intro hBefore
    by_contra hNot
    rw [hSplit (Nat.le_of_not_lt hNot)] at hBefore
    exact not_advanceBy_before _ _ hBefore
  · intro hLess
    have hSome : (script.drop m).take (n - m) ≠ [] := by
      rw [← List.length_pos_iff, List.length_take, List.length_drop]
      omega
    obtain ⟨c, rest, hRest⟩ := List.exists_cons_of_ne_nil hSome
    rw [hSplit (Nat.le_of_lt hLess), hRest]
    exact before_advanceBy _ c rest

/-! ## Scripts that differ in the case of keywords -/

/-- The position lies in a keyword, between its start and the next token or the end of the script,
and no literal stands directly in front of the keyword. -/
def InFreeKeyword (tokens : List Token) (final place : Position) : Prop :=
  ∃ front token back, tokens = front ++ token :: back ∧ token.isKeyword = true ∧
    (∀ last ∈ front.getLast?, last.kind ≠ .literal) ∧
    place.Within token.start ((back.head?.map Token.start).getD final)

/-- The second script differs from the first one, which has the tokens, in the case of such letters
only. -/
structure Recased (tokens : List Token) (first second : List Char) : Prop where
  sameLetters : SameLetters first second
  inKeyword : ∀ i, first[i]? ≠ second[i]? →
    InFreeKeyword tokens (Position.start.advanceBy first) (Position.start.advanceBy (first.take i))

section Tiles

variable {front rest : List Tile} {tile : Tile} {first second : List Char}

/-- The characters of a tile are the ones at its place in the script. -/
theorem Tiling.start_eq_take (h : Tiling Position.start (front ++ tile :: rest)) :
    tile.token.start =
      Position.start.advanceBy ((textOf (front ++ tile :: rest)).take (textOf front).length) := by
  rw [h.start_eq, textOf_append, List.take_left]

/-- A position in the script lies between a tile and the next one if and only if its character
belongs to the tile. -/
theorem Tiling.within_iff (h : Tiling Position.start (front ++ tile :: rest)) {i : Nat}
    (hi : i ≤ (textOf (front ++ tile :: rest)).length) :
    (Position.start.advanceBy ((textOf (front ++ tile :: rest)).take i)).Within tile.token.start
        (((rest.map Tile.token).head?.map Token.start).getD
          (Position.start.advanceBy (textOf (front ++ tile :: rest)))) ↔
      (textOf front).length ≤ i ∧ i < (textOf (front ++ [tile])).length := by
  -- The next token starts where the tile ends, or the script ends there if there is none.
  have hNext : ((rest.map Tile.token).head?.map Token.start).getD
      (Position.start.advanceBy (textOf (front ++ tile :: rest))) =
        Position.start.advanceBy ((textOf (front ++ tile :: rest)).take
          (textOf (front ++ [tile])).length) := by
    cases rest with
    | nil => rw [List.take_length]; rfl
    | cons next rest =>
      rw [List.append_cons] at h ⊢
      exact h.start_eq_take
  have hFront : (textOf front).length ≤ (textOf (front ++ tile :: rest)).length := by simp
  have hBack : (textOf (front ++ [tile])).length ≤ (textOf (front ++ tile :: rest)).length := by
    simp
  rw [hNext, h.start_eq_take, Position.Within, Position.before_take_iff hi hFront,
    Position.before_take_iff hi hBack, Nat.not_lt]

/-- A character belongs to one tile only. -/
theorem eq_of_textOf_length {front' rest' : List Tile} {tile' : Tile} {i : Nat}
    (h : front ++ tile :: rest = front' ++ tile' :: rest')
    (hFirst : (textOf front).length ≤ i ∧ i < (textOf (front ++ [tile])).length)
    (hSecond : (textOf front').length ≤ i ∧ i < (textOf (front' ++ [tile'])).length) :
    front = front' ∧ tile = tile' := by
  -- If one front went on beyond the other, then it would hold the other tile.
  have hLonger : ∀ {front front' rest rest' : List Tile} {tile tile' : Tile},
      front ++ tile :: rest = front' ++ tile' :: rest' →
      i < (textOf (front ++ [tile])).length → (textOf front').length ≤ i →
      front'.length ≤ front.length := by
    intro front front' rest rest' tile tile' hSame hInside hReached
    by_contra hLess
    have hTile : front ++ [tile] <+: front ++ tile :: rest := ⟨rest, by simp⟩
    have hFront : front' <+: front ++ tile :: rest := ⟨tile' :: rest', hSame.symm⟩
    have hPrefix : front ++ [tile] <+: front' := by
      refine List.prefix_of_prefix_length_le hTile hFront ?_
      rw [List.length_append, List.length_singleton]
      omega
    obtain ⟨more, rfl⟩ := hPrefix
    rw [textOf_append, List.length_append] at hReached
    omega
  have hLength : front.length = front'.length :=
    Nat.le_antisymm (hLonger h.symm hSecond.2 hFirst.1) (hLonger h hFirst.2 hSecond.1)
  obtain ⟨hFront, hBack⟩ := List.append_inj h hLength
  exact ⟨hFront, (List.cons.inj hBack).1⟩

/-- A character that differs belongs to a keyword with no literal directly in front. -/
theorem Recased.tile_of_ne (h : Tiling Position.start (front ++ tile :: rest))
    (hText : textOf (front ++ tile :: rest) = first)
    (hRecased : Recased ((front ++ tile :: rest).map Tile.token) first second) {i : Nat}
    (hNe : first[i]? ≠ second[i]?)
    (hInside : (textOf front).length ≤ i ∧ i < (textOf (front ++ [tile])).length) :
    tile.token.isKeyword = true ∧ ∀ last ∈ front.getLast?, last.token.kind ≠ .literal := by
  obtain ⟨before, token, after, hTokens, hKeyword, hLiteral, hWithin⟩ := hRecased.inKeyword i hNe
  obtain ⟨front', others, hTiles, rfl, hOthers⟩ := List.map_eq_append_iff.mp hTokens
  obtain ⟨tile', rest', rfl, rfl, rfl⟩ := List.map_eq_cons_iff.mp hOthers
  have hi : i ≤ (textOf (front' ++ tile' :: rest')).length := by
    have hBound : (textOf (front ++ [tile])).length ≤ (textOf (front ++ tile :: rest)).length := by
      simp
    rw [← hTiles]
    omega
  rw [hTiles] at h hText
  rw [← hText, h.within_iff hi] at hWithin
  obtain ⟨rfl, rfl⟩ := eq_of_textOf_length hTiles hInside hWithin
  refine ⟨hKeyword, fun last hLast => hLiteral last.token ?_⟩
  rw [List.getLast?_map]
  exact Option.mem_map_of_mem Tile.token hLast

/-- The second script stands for the tiles of the first one. -/
theorem respelled_of_recased (h : Tiling Position.start (front ++ rest))
    (hText : textOf (front ++ rest) = first)
    (hRecased : Recased ((front ++ rest).map Tile.token) first second) :
    Respelled (front.getLast?.any fun last => last.token.kind = .literal) rest
      (second.drop (textOf front).length) := by
  have hLetters := hRecased.sameLetters
  have hFrom : ∀ {front rest : List Tile}, textOf (front ++ rest) = first →
      SameLetters (textOf rest) (second.drop (textOf front).length) := by
    intro front rest hText
    rw [← hText, textOf_append] at hLetters
    exact hLetters.drop_left
  -- The tiles are taken off one by one; those already taken show which literals came before.
  induction rest generalizing front with
  | nil => exact (hFrom hText).eq_nil
  | cons tile rest ih =>
    have hEnd : (textOf front).length + tile.lexeme.source.length =
        (textOf (front ++ [tile])).length := by simp
    refine ⟨(second.drop (textOf front).length).take tile.lexeme.source.length,
      second.drop (textOf (front ++ [tile])).length, ?_, ?_, ?_, ?_⟩
    · rw [← hEnd, ← List.drop_drop, List.take_append_drop]
    · have hRest := hFrom hText
      rw [textOf_cons] at hRest
      exact hRest.take_left
    · intro hFixed
      -- A character of the tile that differs would make it a keyword without a literal in front.
      have hSame : ∀ i, (textOf front).length ≤ i → i < (textOf (front ++ [tile])).length →
          first[i]? = second[i]? := by
        intro i hFirst hLast
        by_contra hNe
        obtain ⟨hKeyword, hLiteral⟩ := hRecased.tile_of_ne h hText hNe ⟨hFirst, hLast⟩
        refine hFixed ⟨hKeyword, ?_⟩
        cases hLastTile : front.getLast? with
        | none => rfl
        | some last => simpa using hLiteral last hLastTile
      have hSource : tile.lexeme.source =
          (first.drop (textOf front).length).take tile.lexeme.source.length := by
        rw [← hText, textOf_append, List.drop_left, textOf_cons, List.take_left]
      refine (List.ext_getElem? fun i => ?_).trans hSource.symm
      rw [List.getElem?_take, List.getElem?_take]
      split
      · next hi =>
        rw [List.getElem?_drop, List.getElem?_drop, hSame] <;> omega
      · rfl
    · have hAfter := @ih (front ++ [tile]) (by simpa using h) (by simpa using hText)
        (by simpa using hRecased)
      simpa using hAfter

end Tiles

/-- Both scripts have the same tokens. -/
theorem tokenize_recased {rules : Rules} {script second : String} {tokens : List Token}
    (h : tokenize rules script = .ok tokens)
    (hRecased : Recased tokens script.toList second.toList) :
    tokenize rules second = .ok tokens := by
  obtain ⟨lexemes, hLex, rfl⟩ := lexes_of_tokenize h
  obtain ⟨hLexes, hSource⟩ := lexes_of_lex hLex
  have hTiles : Token.ofLexemes rules lexemes = (tilesOf rules lexemes).map Tile.token :=
    (Tile.map_token_ofLexemesAfter rules Position.start false lexemes).symm
  have hText : textOf ([] ++ tilesOf rules lexemes) = script.toList := by
    rw [List.nil_append, Tile.textOf_ofLexemesAfter, hSource]
  rw [hTiles] at hRecased
  have hRespelled : Respelled false (tilesOf rules lexemes) second.toList :=
    @respelled_of_recased [] _ _ _ (tiling_ofLexemesAfter rules Position.start false hLexes) hText
      hRecased
  obtain ⟨again, hAgain, hAgainSource, hTokens, -⟩ := exists_respelled hLexes hRespelled
  have hLexAgain := lex_of_lexes hAgain
  rw [List.append_nil, hAgainSource, lex_nil, List.append_nil] at hLexAgain
  rw [tokenize_of_lex rules hLexAgain, Tile.map_token_ofLexemesAfter, hTokens]
  rfl

/-! ## Statements that differ in the case of keywords -/

/-- The statements are the same but for the case of letters in their texts. -/
structure Statement.Respells (statement other : Statement) : Prop where
  same : other = { statement with text := other.text }
  sameLetters : SameLetters statement.text.toList other.text.toList

/-- Besides, the texts stand at the same place of the two scripts. -/
structure Statement.Recased (first second : List Char) (statement other : Statement) : Prop
    extends statement.Respells other where
  placed : ∃ front front' back back', first = front ++ statement.text.toList ++ back ∧
    second = front' ++ other.text.toList ++ back' ∧ front.length = front'.length ∧
    statement.start = Position.start.advanceBy front

/-- Pieces with the same letters make statements with the same letters. -/
theorem Statement.respells_ofPiece {piece other : List Char}
    (h : SameLetters piece other) (start : Position) (context : Context)
    (terminated : Bool) :
    Option.Rel Respells (ofPiece piece start context terminated)
      (ofPiece other start context terminated) := by
  have hTrim := h.trimChars
  have hEmpty : (trimChars piece).isEmpty = (trimChars other).isEmpty := by
    rw [Bool.eq_iff_iff, List.isEmpty_iff_length_eq_zero, List.isEmpty_iff_length_eq_zero,
      hTrim.length_eq]
  unfold ofPiece
  dsimp only
  rw [hEmpty]
  split
  · exact .none
  · exact .some ⟨rfl, by simpa using hTrim⟩

section Statements

variable {first second : List Char} (h : SameLetters first second)

include h

/-- A position is found at the same place of both scripts. -/
theorem placeOf_recased {front back : List Char} (hFirst : first = front ++ back) :
    (placeOf second (Position.start.advanceBy front)).index =
        (placeOf first (Position.start.advanceBy front)).index ∧
      SameLetters (placeOf first (Position.start.advanceBy front)).rest
        (placeOf second (Position.start.advanceBy front)).rest := by
  rw [hFirst] at h
  have hFront : SameLetters front (second.take front.length) := h.take_left
  have hPlace := placeOf_advanceBy (second.take front.length) (second.drop front.length)
  rw [List.take_append_drop, ← hFront.advanceBy_eq] at hPlace
  rw [hPlace, hFirst, placeOf_advanceBy]
  exact ⟨hFront.length_eq.symm, h.drop_left⟩

/-- The pieces of both scripts that belong to a segment have the same letters. -/
theorem Segment.piece_recased {segment : Segment Token} {place : Position}
    (hStart : ∃ front back, first = front ++ back ∧ place = Position.start.advanceBy front)
    (hEnd : ∀ mark ∈ segment.terminator, ∃ front back, first = front ++ back ∧
      mark.start = Position.start.advanceBy front) :
    SameLetters (segment.piece first place) (segment.piece second place) := by
  obtain ⟨front, back, hFirst, rfl⟩ := hStart
  -- Positions are looked up to the same index in both scripts.
  obtain ⟨hIndex, hRest⟩ := placeOf_recased h hFirst
  unfold Segment.piece
  cases hTerminator : segment.terminator with
  | none => exact hRest
  | some mark =>
    obtain ⟨front', back', hFirst', hMark⟩ := hEnd mark hTerminator
    obtain ⟨hIndex', -⟩ := placeOf_recased h hFirst'
    dsimp only
    unfold textBetween
    rw [hMark, hIndex, hIndex']
    exact hRest.take _

/-- The statements of both scripts that a segment makes have the same letters. -/
theorem Segment.statement_recased (rules : Rules) {tokens : List Token}
    (hStarts : ∀ token ∈ tokens, ∃ front back, first = front ++ back ∧
      token.start = Position.start.advanceBy front)
    {segment : Segment Token} (hSegment : segment ∈ segments rules id tokens) :
    Option.Rel Statement.Respells (segment.statement rules first)
      (segment.statement rules second) := by
  -- The tokens of a segment are tokens of the script, so their places are known.
  have hMem : ∀ token ∈ segment.all, token ∈ tokens := by
    intro token hToken
    rw [← flatMap_all_segments rules id tokens]
    exact List.mem_flatMap.mpr ⟨segment, hSegment, hToken⟩
  unfold Segment.statement
  cases hOpening : opening segment.items with
  | none => exact .none
  | some place =>
    obtain ⟨token, hFind, rfl⟩ := Option.map_eq_some_iff.mp hOpening
    have hToken : token ∈ segment.all := List.mem_append_left _ (List.mem_of_find?_eq_some hFind)
    have hEnd : ∀ mark ∈ segment.terminator, ∃ front back, first = front ++ back ∧
        mark.start = Position.start.advanceBy front := by
      intro mark hMark
      exact hStarts mark (hMem mark (List.mem_append_right _ (Option.mem_toList.mpr hMark)))
    have hPiece := Segment.piece_recased h (hStarts token (hMem token hToken)) hEnd
    exact Statement.respells_ofPiece hPiece ..

end Statements

section Splits

variable {rules : Rules} {script second : String} {tokens : List Token}

/-- Statements that start at the same position stand at the same place of their scripts. -/
theorem length_eq_of_advanceBy_eq {first second front back front' back' : List Char}
    (hSame : SameLetters first second) (hFirst : first = front ++ back)
    (hSecond : second = front' ++ back')
    (hStart : Position.start.advanceBy front = Position.start.advanceBy front') :
    front.length = front'.length := by
  have hFront : SameLetters front (second.take front.length) := (hFirst ▸ hSame).take_left
  have hPlace : Position.start.advanceBy (second.take front.length) =
      Position.start.advanceBy (second.take front'.length) := by
    rw [← hFront.advanceBy_eq, hStart, hSecond, List.take_left]
  have hBound : front.length ≤ second.length := by
    rw [← hSame.length_eq, hFirst, List.length_append]
    omega
  have hBound' : front'.length ≤ second.length := by
    rw [hSecond, List.length_append]
    omega
  -- Neither place comes before the other.
  have hNot := mt (Position.before_take_iff hBound hBound').mpr
    (hPlace ▸ Position.not_before_self _)
  have hNot' := mt (Position.before_take_iff hBound' hBound).mpr
    (hPlace ▸ Position.not_before_self _)
  omega

/-- Two scripts with the same letters and the same tokens are reported on alike. -/
theorem report_recased {told other : Report} (hSame : SameLetters script.toList second.toList)
    (hTold : told = .concat ((segments rules id tokens).map
      (Segment.report rules script.toList)))
    (hOther : other = .concat ((segments rules id tokens).map
      (Segment.report rules second.toList)))
    (hVerbatim : Verbatim rules script tokens told.split)
    (hOtherVerbatim : Verbatim rules second tokens other.split) :
    other.diagnostics = told.diagnostics ∧
      List.Forall₂ (Statement.Recased script.toList second.toList) told.statements.toList
        other.statements.toList := by
  constructor
  · -- Problems are about tokens, not about the script.
    rw [← Array.toList_inj, hTold, hOther, Report.diagnostics_concat, Report.diagnostics_concat]
    rfl
  · have hStarts : ∀ token ∈ tokens, ∃ front back, script.toList = front ++ back ∧
        token.start = Position.start.advanceBy front := by
      intro token hToken
      obtain ⟨front, c, back, hScript, hStart⟩ := hVerbatim.start token hToken
      exact ⟨front, c :: back, hScript, hStart⟩
    have hMade : told.statements.toList = _ := hVerbatim.made
    have hOtherMade : other.statements.toList = _ := hOtherVerbatim.made
    -- The segments are the same, so the statements are compared one by one.
    have hSegments : List.Forall₂ (fun segment again => segment = again ∧
        segment ∈ segments rules id tokens) (segments rules id tokens)
        (segments rules id tokens) :=
      List.forall₂_same.mpr fun _ hSegment => ⟨rfl, hSegment⟩
    have hRespells : List.Forall₂ Statement.Respells told.statements.toList
        other.statements.toList := by
      rw [hMade, hOtherMade]
      refine List.rel_filterMap ?_ hSegments
      rintro segment _ ⟨rfl, hSegment⟩
      exact Segment.statement_recased hSame rules hStarts hSegment
    obtain ⟨hLength, hPairs⟩ := List.forall₂_iff_zip.mp hRespells
    refine List.forall₂_iff_zip.mpr ⟨hLength, fun {statement again} hPair => ?_⟩
    obtain ⟨hStatement, hAgain⟩ := List.of_mem_zip hPair
    -- Both texts stand where their statements start, which is the same position.
    obtain ⟨front, back, hFirst, hStart⟩ := hVerbatim.laid.exists_place hStatement
    obtain ⟨front', back', hSecond, hStart'⟩ := hOtherVerbatim.laid.exists_place hAgain
    have hStarts' : again.start = statement.start := by rw [(hPairs hPair).same]
    refine ⟨hPairs hPair, front, front', back, back', hFirst, hSecond, ?_, hStart⟩
    rw [List.append_assoc] at hFirst hSecond
    exact length_eq_of_advanceBy_eq hSame hFirst hSecond (by rw [← hStart, ← hStart', hStarts'])

/-- Keywords may be written in any letter case: the script has the same tokens, and it is split into
the same statements with the same problems. Only the texts of the statements are written as the
script is. -/
theorem split_recased (h : tokenize rules script = .ok tokens)
    (hRecased : Recased tokens script.toList second.toList) :
    tokenize rules second = .ok tokens ∧
      (script.toList.head? ≠ some '\ufeff' → ∃ result other,
        split rules script = .ok result ∧ split rules second = .ok other ∧
        other.diagnostics = result.diagnostics ∧
        List.Forall₂ (Statement.Recased script.toList second.toList) result.statements.toList
          other.statements.toList) := by
  have hAgain := tokenize_recased h hRecased
  refine ⟨hAgain, fun hMark => ?_⟩
  have hSame := hRecased.sameLetters
  have hScript := dropByteOrderMark_of_head? hMark
  -- A byte order mark has no letter case, so neither script has one.
  have hSecond : dropByteOrderMark second = second :=
    dropByteOrderMark_of_head? (mt (hSame.head?_sign (by decide)).mpr hMark)
  have hFirst : tokenize rules (dropByteOrderMark script) = .ok tokens := by
    rw [hScript]
    exact h
  have hOther : tokenize rules (dropByteOrderMark second) = .ok tokens := by
    rw [hSecond]
    exact hAgain
  obtain ⟨made, hMade, hTold, hVerbatim⟩ := exists_tokens_of_report (report_of_tokenize hFirst)
  obtain ⟨again, hAgainMade, hOtherTold, hOtherVerbatim⟩ :=
    exists_tokens_of_report (report_of_tokenize hOther)
  obtain rfl := Except.ok.inj (hFirst.symm.trans hMade)
  obtain rfl := Except.ok.inj (hOther.symm.trans hAgainMade)
  rw [hScript] at hTold hVerbatim
  rw [hSecond] at hOtherTold hOtherVerbatim
  -- From here on both scripts have the same tokens, and only the texts cut out differ.
  obtain ⟨hDiagnostics, hStatements⟩ :=
    report_recased hSame hTold hOtherTold hVerbatim hOtherVerbatim
  refine ⟨_, _, split_of_tokenize hFirst, split_of_tokenize hOther, ?_, ?_⟩
  · rw [hScript, hSecond]
    exact hDiagnostics
  · rw [hScript, hSecond]
    exact hStatements

end Splits

/-! ### Two scripts -/

/-- Two keywords in the other case, on both sides of a terminator. -/
theorem recased_end_begin : Recased [⟨"END", .keyword, ⟨1, 1⟩⟩, ⟨";", .terminator, ⟨1, 4⟩⟩,
    ⟨"BEGIN", .keyword, ⟨1, 5⟩⟩] "END;BEGIN".toList "eND;begin".toList := by
  -- The scripts differ at the first letter and in the last word.
  have hPlaces : ∀ i < 9, "END;BEGIN".toList[i]? ≠ "eND;begin".toList[i]? → i = 0 ∨ 4 ≤ i := by
    decide +kernel
  have hLast : ∀ i < 9, 4 ≤ i →
      (Position.start.advanceBy ("END;BEGIN".toList.take i)).Within ⟨1, 5⟩
        (Position.start.advanceBy "END;BEGIN".toList) := by
    unfold Position.Within Position.Before
    decide +kernel
  refine ⟨by unfold SameLetters; decide +kernel, fun i hNe => ?_⟩
  have hi : i < 9 := by
    by_contra hEnd
    refine hNe ?_
    rw [List.getElem?_eq_none (by simpa using hEnd), List.getElem?_eq_none (by simpa using hEnd)]
  rcases hPlaces i hi hNe with rfl | hBack
  · refine ⟨[], _, _, rfl, rfl, nofun, ?_⟩
    unfold Position.Within Position.Before
    decide +kernel
  · exact ⟨[_, _], _, [], rfl, rfl, by simp, hLast i hi hBack⟩

/-- The problems of the second script are those of the first one. -/
theorem split_recased_end_begin :
    ∃ other, split Dialect.hsqldb.rules "eND;begin" = .ok other ∧
      other.diagnostics = #[.unmatchedEnd ⟨1, 1⟩, .unclosedBlock ⟨1, 5⟩ 1] ∧
      List.Forall₂ (Statement.Recased "END;BEGIN".toList "eND;begin".toList)
        [⟨"END", ⟨1, 1⟩, 1, 0, true⟩, ⟨"BEGIN", ⟨1, 5⟩, 1, 1, false⟩] other.statements.toList := by
  obtain ⟨-, hSplit⟩ := split_recased tokenize_end_begin recased_end_begin
  obtain ⟨result, other, hResult, hOther, hDiagnostics, hStatements⟩ := hSplit (by decide +kernel)
  obtain rfl := Except.ok.inj (split_end_begin.symm.trans hResult)
  exact ⟨other, hOther, hDiagnostics, hStatements⟩

end SqlScript
