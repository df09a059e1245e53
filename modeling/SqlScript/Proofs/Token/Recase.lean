import SqlScript.Proofs.Lexeme.Caseless
import SqlScript.Proofs.Lexeme.Spelling
import SqlScript.Proofs.Token.Relex

/-!
# Keywords in another letter case

The letters of a keyword may change their case, and the script still has the same tokens: the word
stays a word with the same upper case, and what is around it does not notice. Only behind a literal
the script has to stay as it is, since a number could go on with one of the two cases.

`Respelled` says that some characters stand for the tiles of another script in that way. It follows
the tiles one by one, so that the lexemes of the characters are found in the same order.

## Results

* `exists_respelled` — respelled characters have lexemes, and the tokens of these are the same.
-/

namespace SqlScript

/-! ## Reserved words -/

theorem upper_congr {chars chars' : List Char} (h : SameLetters chars chars') :
    upper (String.ofList chars) = upper (String.ofList chars') := by
  unfold upper
  rw [String.toList_ofList, String.toList_ofList, h]

/-- A word is reserved in either case. -/
theorem isKeyword_congr (rules : Rules) {chars chars' : List Char} (h : SameLetters chars chars') :
    rules.isKeyword (String.ofList chars) = rules.isKeyword (String.ofList chars') := by
  unfold Rules.isKeyword
  rw [upper_congr h]

/-! ## Respelled tiles -/

/-- The characters stand for the tiles: every tile is as before but for the case of a keyword's
letters, and a keyword directly behind a literal is not changed either. -/
def Respelled : Bool → List Tile → List Char → Prop
  | _, [], chars => chars = []
  | afterLiteral, tile :: rest, chars => ∃ taken more, chars = taken ++ more ∧
      SameLetters tile.lexeme.source taken ∧
      (¬ (tile.token.isKeyword = true ∧ afterLiteral = false) → taken = tile.lexeme.source) ∧
      Respelled (tile.token.kind = .literal) rest more

variable {rules : Rules} {position : Position} {afterPeriod afterLiteral : Bool}

/-- Respelled characters differ from those of the tiles in letter case only. -/
theorem Respelled.sameLetters {tiles : List Tile} {chars : List Char}
    (h : Respelled afterLiteral tiles chars) : SameLetters (textOf tiles) chars := by
  induction tiles generalizing afterLiteral chars with
  | nil =>
    obtain rfl : chars = [] := h
    exact SameLetters.refl []
  | cons tile rest ih =>
    obtain ⟨taken, more, rfl, hTaken, -, hMore⟩ := h
    exact hTaken.append (ih hMore)

/-- Behind a literal the characters start as before. -/
theorem Respelled.head?_eq {tiles : List Tile} {chars : List Char} (h : Respelled true tiles chars)
    (hNil : ∀ tile ∈ tiles.head?, tile.lexeme.source ≠ []) :
    (textOf tiles).head? = chars.head? := by
  cases tiles with
  | nil =>
    obtain rfl : chars = [] := h
    rfl
  | cons tile rest =>
    obtain ⟨taken, more, rfl, -, hTaken, -⟩ := h
    obtain ⟨c, source, hSource⟩ := List.exists_cons_of_ne_nil (hNil tile rfl)
    rw [hTaken (by simp), textOf_cons, hSource]
    rfl

/-- A keyword in another letter case is read where the keyword was, and the token is the same. -/
theorem exists_respelled_keyword {qualified : Bool} {lexeme : Lexeme} {c : Char}
    {front taken after after' : List Char} (hRead : readLexeme c (front ++ after) = .ok lexeme)
    (hSource : lexeme.source = c :: front) (hTaken : SameLetters lexeme.source taken)
    (hAfter : SameLetters after after')
    (hKeyword : (Token.ofLexeme rules position qualified lexeme).isKeyword = true) :
    ∃ d others, taken = d :: others ∧
      readLexeme d (others ++ after') = .ok (.verbatim .word taken) ∧
      Token.ofLexeme rules position qualified (.verbatim .word taken) =
        Token.ofLexeme rules position qualified lexeme ∧
      lexeme.isPeriod = false := by
  obtain ⟨hKind, rfl, hReserved⟩ := Token.of_isKeyword_ofLexeme hKeyword
  have hText : lexeme.text = lexeme.source := by
    have hSpelled := readLexeme_spelled hRead
    unfold Lexeme.Spelled at hSpelled
    rw [hKind] at hSpelled
    exact hSpelled.symm
  -- No sign opens a reserved word.
  have hSign : c ≠ '@' ∧ c ≠ '#' := by
    rw [← not_or]
    intro hOpens
    rw [hText, hSource, not_isKeyword_of_sign rules hOpens] at hReserved
    cases hReserved
  -- Its upper case is what it is looked up by and what it is shown with.
  obtain ⟨d, others, rfl, -⟩ := (hSource ▸ hTaken).cases_cons
  refine ⟨d, others, rfl, ?_, ?_, ?_⟩
  · exact readLexeme_respell (hSource ▸ hTaken) hAfter hRead hSource hKind hSign
  · have hOther : rules.isKeyword (String.ofList (d :: others)) = true := by
      rw [← isKeyword_congr rules hTaken, ← hText]
      exact hReserved
    rw [Token.ofLexeme_keyword position hKind hReserved, hText, upper_congr hTaken]
    have hVerbatim : (Lexeme.verbatim .word (d :: others)).text = d :: others := rfl
    rw [← hVerbatim] at hOther
    exact Token.ofLexeme_keyword position rfl hOther
  · unfold Lexeme.isPeriod
    rw [hKind]
    rfl

/-- The characters that stand for a tile are read as a lexeme with the same token, whichever case
the letters behind them are in. -/
theorem exists_respelled_lexeme {qualified : Bool} {lexeme : Lexeme} {c : Char}
    {front taken after after' : List Char} (hRead : readLexeme c (front ++ after) = .ok lexeme)
    (hSource : lexeme.source = c :: front) (hTaken : SameLetters lexeme.source taken)
    (hSame : ¬ ((Token.ofLexeme rules position qualified lexeme).isKeyword = true ∧
      afterLiteral = false) → taken = lexeme.source)
    (hAfter : SameLetters after after')
    (hLiteral : lexeme.kind = .literal → after.head? = after'.head?) :
    ∃ c' front' lexeme', taken = c' :: front' ∧ lexeme'.source = taken ∧
      readLexeme c' (front' ++ after') = .ok lexeme' ∧
      Token.ofLexeme rules position qualified lexeme' =
        Token.ofLexeme rules position qualified lexeme ∧
      lexeme'.isPeriod = lexeme.isPeriod := by
  by_cases hFree : (Token.ofLexeme rules position qualified lexeme).isKeyword = true ∧
      afterLiteral = false
  · obtain ⟨d, word, hWord, hAgain, hToken, hNone⟩ :=
      exists_respelled_keyword hRead hSource hTaken hAfter hFree.1
    exact ⟨d, word, _, hWord, rfl, hAgain, hToken, hNone.symm⟩
  · -- Any other lexeme is unchanged, but the characters behind it may have changed.
    refine ⟨c, front, lexeme, (hSame hFree).trans hSource, (hSame hFree).symm, ?_, rfl, rfl⟩
    exact readLexeme_recase hAfter hRead hSource hLiteral

/-- Respelled characters have lexemes, and the tokens of these are the tokens of the tiles. -/
theorem exists_respelled {lexemes : List Lexeme} {chars : List Char} (hLexes : Lexes lexemes [])
    (h : Respelled afterLiteral (Tile.ofLexemesAfter rules position afterPeriod lexemes) chars) :
    ∃ again, Lexes again [] ∧ sourceOf again = chars ∧
      Token.ofLexemesAfter rules position afterPeriod again =
        Token.ofLexemesAfter rules position afterPeriod lexemes ∧
      again.head?.any Lexeme.isPeriod = lexemes.head?.any Lexeme.isPeriod := by
  induction lexemes generalizing position afterPeriod afterLiteral chars with
  | nil => exact ⟨[], trivial, h.symm, rfl, rfl⟩
  | cons lexeme rest ih =>
    obtain ⟨⟨c, front, hSource, hRead⟩, hRest⟩ := hLexes
    obtain ⟨taken, more, rfl, hTaken, hSame, hMore⟩ := h
    -- What a lexeme is depends on the characters behind it, so those are read first.
    obtain ⟨others, hOthers, hOthersSource, hTokens, hPeriod⟩ := ih hRest hMore
    have hAfter : SameLetters (sourceOf rest ++ []) (sourceOf others ++ []) := by
      have hLetters := hMore.sameLetters
      rw [Tile.textOf_ofLexemesAfter] at hLetters
      rw [List.append_nil, List.append_nil, hOthersSource]
      exact hLetters
    -- Behind a literal the next tile is not changed.
    have hLiteral : lexeme.kind = .literal →
        (sourceOf rest ++ []).head? = (sourceOf others ++ []).head? := by
      intro hKind
      have hFollows : Respelled true (Tile.ofLexemesAfter rules
          (position.advanceBy lexeme.source) lexeme.isPeriod rest) more := by
        rwa [decide_eq_true ((Token.isLiteral_ofLexeme ..).mpr hKind)] at hMore
      have hHead := hFollows.head?_eq fun tile hTile =>
        ((tiling_ofLexemesAfter rules _ _ hRest).genuine (List.mem_of_mem_head? hTile)).ne_nil
      rw [Tile.textOf_ofLexemesAfter] at hHead
      rw [List.append_nil, List.append_nil, hOthersSource]
      exact hHead
    have hQualified : Lexeme.qualified afterPeriod others = Lexeme.qualified afterPeriod rest := by
      unfold Lexeme.qualified
      rw [hPeriod]
    obtain ⟨c', front', lexeme', rfl, hSource', hRead', hToken, hPeriod'⟩ :=
      exists_respelled_lexeme hRead hSource hTaken hSame hAfter hLiteral
    refine ⟨lexeme' :: others, ⟨⟨c', front', hSource', hRead'⟩, hOthers⟩, ?_, ?_, ?_⟩
    · rw [sourceOf_cons, hSource', hOthersSource]
    · rw [Token.ofLexemesAfter_cons, Token.ofLexemesAfter_cons, hQualified, hToken, hPeriod',
        hSource', ← hTaken.advanceBy_eq, hTokens]
    · simpa using hPeriod'

end SqlScript
