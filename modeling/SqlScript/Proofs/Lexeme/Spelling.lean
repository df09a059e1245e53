import SqlScript.Proofs.Lexeme.Ending
import SqlScript.Proofs.Token.Tile

/-!
# How the kinds of lexeme are spelled

The text of a lexeme is often not what was read: quotes are dropped, escapes replaced, line ends
brought into one form. Still the characters that were read show of what kind the lexeme is. A word
is read as it is shown, a delimited identifier starts with its delimiter, a blank has blank
characters only, and a comment starts with one of its two marks.

`Lexeme.Spelled` says so, and `readLexeme_spelled` shows it rule by rule.

## Results

* `readLexeme_spelled` — every lexeme is spelled as its kind.
-/

namespace SqlScript

/-- The marks that open a comment. -/
def commentMarks : List (List Char) := [['-', '-'], ['/', '*']]

/-- The delimiters of identifiers. -/
def identifierDelimiters : List Char := [doubleQuote, backquote]

/-- The characters that a lexeme was read from show of what kind it is. -/
def Lexeme.Spelled (lexeme : Lexeme) : Prop :=
  match lexeme.kind with
  | .word => lexeme.source = lexeme.text
  | .delimited => ∃ delimiter ∈ identifierDelimiters, ∃ body, lexeme.source = delimiter :: body
  | .blank => ∀ c ∈ lexeme.source, isBlank c = true
  | .comment => ∃ mark ∈ commentMarks, mark <+: lexeme.source
  | .terminator => lexeme.source = [';']
  | .literal | .operator | .period => True

/-- A lexeme that is shown as it is written is spelled as its kind if that has no spelling of its
own. -/
theorem Lexeme.spelled_verbatim {kind : LexemeKind} (source : List Char)
    (h : kind ∈ [.word, .literal, .operator, .period]) : (verbatim kind source).Spelled := by
  simp only [List.mem_cons, List.not_mem_nil, or_false] at h
  rcases h with rfl | rfl | rfl | rfl
  · exact rfl
  all_goals trivial

/-- Literals, operators and periods may be spelled in any way. -/
theorem Lexeme.spelled_of_kind {lexeme : Lexeme}
    (h : lexeme.kind ∈ [.literal, .operator, .period]) : lexeme.Spelled := by
  simp only [List.mem_cons, List.not_mem_nil, or_false] at h
  unfold Spelled
  rcases h with h | h | h
  all_goals rw [h]; trivial

/-- No literal has a spelling to keep to, be its text what it was read from or not. -/
theorem spelled_quotedLiteral {kind : LexemeKind} {letters : List Char} {delimiter : Char}
    {place : List Char → List Char} {result : Except Fault Body} {lexeme : Lexeme}
    (h : quotedLiteral kind letters delimiter place result = .ok lexeme)
    (hKind : kind ∈ [.literal, .operator, .period]) : lexeme.Spelled := by
  obtain ⟨body, -, hSame, -⟩ := quotedLiteral_ok h
  exact Lexeme.spelled_of_kind (hSame ▸ hKind)

/-- Signs open a word that is shown as it is written. -/
theorem spelled_signLexeme (signs rest : List Char) : (signLexeme signs rest).Spelled := by
  unfold signLexeme
  split
  · exact Lexeme.spelled_verbatim signs (by decide)
  · split
    · exact Lexeme.spelled_verbatim signs (by decide)
    · exact Lexeme.spelled_verbatim _ (by decide)

/-- Hexadecimal numbers are literals, and other numbers are shown as they are written. -/
theorem spelled_numberLexeme (chars : List Char) : (numberLexeme chars).Spelled := by
  unfold numberLexeme
  dsimp only
  split
  · trivial
  · split
    · exact Lexeme.spelled_verbatim _ (by decide)
    · exact Lexeme.spelled_verbatim _ (by decide)

/-- What a dollar sign opens is shown as it is written. -/
theorem spelled_dollarLexeme {rest : List Char} {lexeme : Lexeme}
    (h : dollarLexeme rest = .ok lexeme) : lexeme.Spelled := by
  obtain ⟨-, -, -, -, rfl⟩ | ⟨-, -, -, -, rfl⟩ | rfl := dollarLexeme_ok h
  · exact Lexeme.spelled_verbatim _ (by decide)
  · exact Lexeme.spelled_verbatim _ (by decide)
  · exact Lexeme.spelled_verbatim _ (by decide)

namespace LexicalRule

/-- The lexemes that a rule makes are spelled as their kinds. -/
def Spells (rule : LexicalRule) : Prop :=
  ∀ {c : Char} {rest : List Char} {lexeme : Lexeme}, rule c rest = some (.ok lexeme) →
    lexeme.Spelled

/-- A letter opens literals and operators only. -/
theorem spells_lettered : Spells lettered := by
  intro c rest lexeme h
  obtain ⟨signs, form, tail, hForm, -, hResult, -⟩ := lettered_eq_form h
  have hKind := (hForm.exists_source hResult.symm).2
  have hOrPeriod : lexeme.kind ∈ [.literal, .operator] ++ [.period] := List.mem_append_left _ hKind
  exact Lexeme.spelled_of_kind hOrPeriod

/-- Of the three delimiters two make identifiers, which start with them. -/
theorem spells_quoted : Spells quoted := by
  intro c rest lexeme h
  obtain ⟨-, hString⟩ | ⟨hDelimiter, hIdentifier⟩ := quoted_ok h
  · exact spelled_quotedLiteral hString (by decide)
  · obtain ⟨body, -, rfl⟩ := delimitedIdentifier_ok hIdentifier
    show ∃ delimiter ∈ identifierDelimiters, ∃ after, c :: body.source = delimiter :: after
    exact ⟨c, by simpa [identifierDelimiters] using hDelimiter, body.source, rfl⟩

/-- A comment starts with the mark that it is recognized by. -/
theorem spells_comment : Spells comment := by
  intro c rest lexeme h
  obtain ⟨tail, -, -, rfl⟩ | ⟨tail, -, -, hBlock⟩ := comment_ok h
  · exact ⟨['-', '-'], by decide, _, rfl⟩
  · obtain ⟨body, -, rfl⟩ := blockComment_ok hBlock
    exact ⟨['/', '*'], by decide, _, rfl⟩

theorem spells_terminator : Spells terminator := by
  intro c rest lexeme h
  have hFrom := sound_terminator h
  unfold terminator at h
  split at h
  · cases h
    exact hFrom.terminator rfl
  · cases h

theorem spells_symbol : Spells symbol := by
  intro c rest lexeme h
  unfold symbol symbolLexeme at h
  rw [Option.map_map, Option.map_eq_some_iff] at h
  obtain ⟨spelling, -, hLexeme⟩ := h
  cases hLexeme
  trivial

theorem spells_sign : Spells sign := by
  intro c rest lexeme h
  unfold sign at h
  split at h
  · cases h
    exact spelled_signLexeme _ _
  · cases h
    exact spelled_signLexeme _ _
  · cases h
    exact spelled_signLexeme _ _
  · cases h

/-- Every rule but the one for blanks, in the order in which they are asked. -/
theorem spells_of_mem_tail {rule : LexicalRule} (h : rule ∈ all.tail) : Spells rule := by
  simp only [all, List.tail_cons, List.mem_cons, List.not_mem_nil, or_false] at h
  rcases h with rfl | rfl | rfl | rfl | rfl | rfl | rfl | rfl | rfl | rfl
  · exact spells_lettered
  · exact spells_quoted
  · intro c rest lexeme h
    unfold number at h
    split at h
    · cases h
      exact spelled_numberLexeme _
    · cases h
  · exact spells_comment
  · exact spells_terminator
  · exact spells_symbol
  · exact spells_sign
  · intro c rest lexeme h
    unfold placeholder at h
    split at h
    · cases h
      exact Lexeme.spelled_verbatim _ (by decide)
    · cases h
  · intro c rest lexeme h
    unfold word at h
    split at h
    · cases h
      exact Lexeme.spelled_verbatim _ (by decide)
    · cases h
  · intro c rest lexeme h
    unfold dollar at h
    split at h
    · exact spelled_dollarLexeme (Option.some.inj h)
    · cases h

end LexicalRule

/-- Every lexeme is spelled as its kind. -/
theorem readLexeme_spelled {c : Char} {rest : List Char} {lexeme : Lexeme}
    (h : readLexeme c rest = .ok lexeme) : lexeme.Spelled := by
  obtain ⟨rule, hMem, hRule⟩ | ⟨-, rfl⟩ := readLexeme_ok h
  · -- What a blank is read into is known from its first character.
    rcases List.mem_cons.mp hMem with rfl | hTail
    · obtain ⟨hKind, hBlanks⟩ := readLexeme_blank (LexicalRule.speaksOf_blank.opens hRule) rest h
      unfold Lexeme.Spelled
      rw [hKind]
      exact hBlanks
    · exact LexicalRule.spells_of_mem_tail hTail hRule
  · exact Lexeme.spelled_verbatim [c] (by decide)

end SqlScript
