import SqlScript.Proofs.Lexeme.Letters
import SqlScript.Proofs.Token.Tile

/-!
# Reserved words and tokens

The rules of a dialect come into the tokens of a script at one place only: a word on its own is
looked up among the reserved words. So rules that reserve the same words give the same tokens, and
the text of a keyword is one of these words, in upper case.

## Results

* `tokenize_congr`       — rules with the same reserved words give the same tokens or error.
* `reserved_of_tokenize` — the keywords of a script are reserved words in upper case.
-/

namespace SqlScript

section Congruence

variable {rules rules' : Rules} (h : ∀ word, rules.isKeyword word = rules'.isKeyword word)

include h

/-- Of the rules only the reserved words matter to a token. -/
theorem Token.ofLexeme_congr (position : Position) (qualified : Bool) (lexeme : Lexeme) :
    ofLexeme rules position qualified lexeme = ofLexeme rules' position qualified lexeme := by
  unfold ofLexeme Lexeme.classify
  simp only [h]

theorem Token.ofLexemesAfter_congr (position : Position) (afterPeriod : Bool)
    (lexemes : List Lexeme) :
    ofLexemesAfter rules position afterPeriod lexemes =
      ofLexemesAfter rules' position afterPeriod lexemes := by
  induction lexemes generalizing position afterPeriod with
  | nil => rfl
  | cons lexeme rest ih =>
    rw [ofLexemesAfter_cons, ofLexemesAfter_cons, ofLexeme_congr h, ih]

/-- Rules with the same reserved words give the same tokens, or the same error. -/
theorem tokenize_congr (script : String) : tokenize rules script = tokenize rules' script := by
  -- A fault is found before any word is looked up.
  simp only [tokenize, Token.ofLexemes, Token.ofLexemesAfter_congr h]

end Congruence

/-- The token is no keyword, or its text is a reserved word in upper case. -/
def Token.IsReserved (rules : Rules) (token : Token) : Prop :=
  token.isKeyword = true → token.text ∈ rules.keywords ∧ upper token.text = token.text

/-- The keywords of a script are reserved words in upper case. -/
theorem reserved_of_tokenize {rules : Rules} {script : String} {tokens : List Token}
    (h : tokenize rules script = .ok tokens) : ∀ token ∈ tokens, token.IsReserved rules := by
  intro token hToken hKeyword
  obtain ⟨lexemes, -, rfl⟩ := lexes_of_tokenize h
  have hTokens : Token.ofLexemes rules lexemes =
      (Tile.ofLexemesAfter rules Position.start false lexemes).map Tile.token :=
    (Tile.map_token_ofLexemesAfter rules Position.start false lexemes).symm
  rw [hTokens] at hToken
  obtain ⟨tile, hTile, rfl⟩ := List.mem_map.mp hToken
  obtain ⟨start, qualified, hMade⟩ := Tile.token_of_mem hTile
  -- What the token is made of shows that its text is a reserved word, put in upper case.
  rw [hMade] at hKeyword ⊢
  obtain ⟨hKind, rfl, hReserved⟩ := Token.of_isKeyword_ofLexeme hKeyword
  rw [Token.ofLexeme_keyword start hKind hReserved]
  exact ⟨WordSet.contains_eq_true_iff.mp hReserved, upper_upper _⟩

end SqlScript
