import Mathlib.Data.List.Forall2
import SqlScript.Proofs.Token.Reserved

/-!
# Where dialects differ

The tokens of a script depend on the rules at one place only. A script is cut into lexemes, or has a
fault, before any word is looked up; then one token is made of each lexeme, and all that the rules
decide is whether a word on its own becomes a keyword. So the tokens of two dialects can be put
side by side, and where they differ one is a keyword and the other an identifier with the same
letters.

Which words are looked up is decided on the sequence of lexemes: not those with delimiters, and not
those next to a period. Blanks and comments are lexemes, too, and keep a period away from a word; a
number that ends in a period is no period.

## Results

* `Token.getElem?_ofLexemesAfter` — the token of a lexeme depends on the neighbours alone.
* `upper_of_mem_keywords`         — reserved words are kept in upper case.
* `tokenize_classified`           — dialects have the same lexemes and faults, and a token is a
  keyword if and only if its lexeme is a reserved word on its own.
-/

namespace SqlScript

/-! ## Reserved words are in upper case -/

/-- A text without the bytes of small letters is in upper case. -/
theorem upper_eq_self {text : String}
    (h : (bytes text).all (fun byte => byte.toNat < 97) = true) : upper text = text := by
  have hSmall : (smallLetters.all fun c =>
      !(String.utf8EncodeChar c).all fun byte => byte.toNat < 97) = true := by decide
  rw [← String.toList_inj, toList_upper]
  refine (List.map_congr_left fun c hChar => ?_).trans (List.map_id _)
  show c.toUpper = c
  refine (toUpper_eq_self_or c).resolve_right fun hLetter => ?_
  -- The bytes of a small letter would be among those of the text.
  have hLarge := List.all_eq_true.mp hSmall c hLetter
  rw [bytes_eq, List.all_flatMap] at h
  rw [List.all_eq_true.mp h c hChar] at hLarge
  cases hLarge

/-- Every reserved word is in upper case. -/
theorem upper_of_mem_keywords (dialect : Dialect) {word : String} (h : word ∈ dialect.keywords) :
    upper word = word := by
  have hBytes : ∀ word ∈ dialect.keywords.words,
      (bytes word).all (fun byte => byte.toNat < 97) = true := by
    cases dialect <;> decide +kernel
  exact upper_eq_self (hBytes word h)

/-- A word is reserved if and only if it has the letters of a reserved word. -/
theorem Rules.isKeyword_iff {rules : Rules} {word : String} :
    rules.isKeyword word = true ↔ ∃ reserved ∈ rules.keywords, upper reserved = upper word := by
  unfold Rules.isKeyword
  rw [WordSet.contains_eq_true_iff]
  constructor
  · intro hMem
    exact ⟨upper word, hMem, upper_upper word⟩
  · rintro ⟨reserved, hMem, hSame⟩
    rw [← hSame, upper_of_mem_keywords rules.dialect hMem]
    exact hMem

/-! ## The token of a lexeme -/

/-- The kind of token that a lexeme becomes, unless it is a keyword. -/
def LexemeKind.unreserved : LexemeKind → TokenKind
  | word | delimited => .identifier
  | literal => .literal
  | operator | period => .operator
  | terminator => .terminator
  | blank => .whitespace
  | comment => .comment

/-- Without a reserved word there is no keyword. -/
theorem LexemeKind.unreserved_ne_keyword (kind : LexemeKind) : kind.unreserved ≠ .keyword := by
  cases kind <;> decide

/-- A reserved word on its own becomes a keyword, and nothing else depends on the rules. -/
theorem Token.ofLexeme_eq (rules : Rules) (position : Position) (qualified : Bool)
    (lexeme : Lexeme) :
    ofLexeme rules position qualified lexeme =
      if lexeme.kind = .word ∧ qualified = false ∧
          rules.isKeyword (String.ofList lexeme.text) = true then
        ⟨upper (String.ofList lexeme.text), .keyword, position⟩
      else ⟨String.ofList lexeme.text, lexeme.kind.unreserved, position⟩ := by
  unfold ofLexeme Lexeme.classify
  -- Only words are looked up among the reserved ones.
  cases hKind : lexeme.kind with
  | word =>
    dsimp only
    by_cases hReserved : ¬ qualified = true ∧ rules.isKeyword (String.ofList lexeme.text) = true
    · rw [if_pos hReserved, if_pos ⟨rfl, by simpa using hReserved.1, hReserved.2⟩]
    · rw [if_neg hReserved, if_neg fun h => hReserved ⟨by simp [h.2.1], h.2.2⟩]
      rfl
  | _ => rw [if_neg (by simp)]; rfl

/-- What two dialects can make of the same lexeme. -/
structure Token.Alike (first second : Token) : Prop where
  start : first.start = second.start
  /-- The kinds are the same, up to exchanging keywords and identifiers. -/
  kind : first.kind = second.kind ∨ first.kind = .keyword ∧ second.kind = .identifier ∨
    first.kind = .identifier ∧ second.kind = .keyword
  letters : upper first.text = upper second.text
  /-- The texts are the same, unless exactly one is a keyword. -/
  text : first.isKeyword = second.isKeyword → first.text = second.text

theorem Token.Alike.refl (token : Token) : token.Alike token :=
  ⟨rfl, .inl rfl, rfl, fun _ => rfl⟩

theorem Token.Alike.symm {first second : Token} (h : first.Alike second) : second.Alike first where
  start := h.start.symm
  kind := by
    rcases h.kind with hSame | ⟨hFirst, hSecond⟩ | ⟨hFirst, hSecond⟩
    · exact .inl hSame.symm
    · exact .inr (.inr ⟨hSecond, hFirst⟩)
    · exact .inr (.inl ⟨hSecond, hFirst⟩)
  letters := h.letters.symm
  text hSame := (h.text hSame.symm).symm

/-- A word that only the first of two dialects reserves. -/
theorem Token.alike_identifier (text : String) (position : Position) :
    (⟨upper text, .keyword, position⟩ : Token).Alike ⟨text, .identifier, position⟩ :=
  ⟨rfl, .inr (.inl ⟨rfl, rfl⟩), upper_upper text, nofun⟩

/-- Two dialects make alike tokens of one lexeme, in the same place. -/
theorem Token.alike_ofLexeme (rules rules' : Rules) (position : Position) (qualified : Bool)
    (lexeme : Lexeme) :
    (ofLexeme rules position qualified lexeme).Alike
      (ofLexeme rules' position qualified lexeme) := by
  have hWord : lexeme.kind = .word → lexeme.kind.unreserved = .identifier := by
    intro hKind
    rw [hKind]
    rfl
  -- The word is a keyword for both, for one of them, or for neither.
  rw [ofLexeme_eq, ofLexeme_eq]
  split
  · next hFirst =>
    split
    · exact .refl _
    · rw [hWord hFirst.1]
      exact alike_identifier _ _
  · split
    · next hSecond =>
      rw [hWord hSecond.1]
      exact (alike_identifier _ _).symm
    · exact .refl _

/-! ## The tokens of a sequence of lexemes -/

section Sequences

variable (rules rules' : Rules) (position : Position) (afterPeriod : Bool)

/-- Every lexeme becomes one token. -/
theorem Token.length_ofLexemesAfter (lexemes : List Lexeme) :
    (ofLexemesAfter rules position afterPeriod lexemes).length = lexemes.length := by
  induction lexemes generalizing position afterPeriod with
  | nil => rfl
  | cons lexeme rest ih => rw [ofLexemesAfter_cons, List.length_cons, ih, List.length_cons]

/-- Two dialects make tokens alike of the same lexemes. -/
theorem Token.alike_ofLexemesAfter (lexemes : List Lexeme) :
    List.Forall₂ Token.Alike (ofLexemesAfter rules position afterPeriod lexemes)
      (ofLexemesAfter rules' position afterPeriod lexemes) := by
  -- Neither the position nor the neighbours of the next lexeme depend on the rules.
  induction lexemes generalizing position afterPeriod with
  | nil => exact .nil
  | cons lexeme rest ih =>
    rw [ofLexemesAfter_cons, ofLexemesAfter_cons]
    exact .cons (alike_ofLexeme rules rules' position _ lexeme) (ih _ _)

/-- The token of a lexeme depends on its position and on the lexemes next to it. -/
theorem Token.getElem?_ofLexemesAfter (front : List Lexeme) (lexeme : Lexeme)
    (back : List Lexeme) :
    (ofLexemesAfter rules position afterPeriod (front ++ lexeme :: back))[front.length]? =
      some (ofLexeme rules (position.advanceBy (sourceOf front))
        (Lexeme.qualified (Tile.endsInPeriod afterPeriod front) back) lexeme) := by
  induction front generalizing position afterPeriod with
  | nil =>
    rw [List.nil_append, ofLexemesAfter_cons]
    rfl
  | cons first rest ih =>
    rw [List.cons_append, ofLexemesAfter_cons, List.length_cons, List.getElem?_cons_succ, ih,
      sourceOf_cons, Position.advanceBy_append]
    rfl

end Sequences

/-! ## Classified tokens -/

/-- No period stands next to the place between some lexemes. -/
def Unqualified (front back : List Lexeme) : Prop :=
  (∀ before ∈ front.getLast?, before.kind ≠ .period) ∧ ∀ after ∈ back.head?, after.kind ≠ .period

/-- A lexeme is no part of a dotted name exactly if it has no period on either side. -/
theorem qualified_eq_false_iff {front back : List Lexeme} :
    Lexeme.qualified (Tile.endsInPeriod false front) back = false ↔ Unqualified front back := by
  have hFront : Tile.endsInPeriod false front = front.getLast?.any Lexeme.isPeriod := by
    rcases List.eq_nil_or_concat' front with rfl | ⟨init, last, rfl⟩
    · rfl
    · simp [Tile.endsInPeriod]
  unfold Lexeme.qualified Unqualified
  rw [hFront, Bool.or_eq_false_iff]
  refine and_congr ?_ ?_
  · cases front.getLast? <;> simp [Lexeme.isPeriod]
  · cases back.head? <;> simp [Lexeme.isPeriod]

/-- The token is what the rules make of a lexeme between others. -/
structure Lexeme.Becomes (rules : Rules) (front : List Lexeme) (lexeme : Lexeme)
    (back : List Lexeme) (token : Token) : Prop where
  start : token.start = Position.start.advanceBy (sourceOf front)
  /-- It is a keyword if and only if the lexeme is a word without delimiters, not next to a period,
  and has the letters of a reserved word. -/
  isKeyword_iff : token.isKeyword = true ↔ lexeme.kind = .word ∧ Unqualified front back ∧
    ∃ reserved ∈ rules.keywords, upper reserved = upper (String.ofList lexeme.text)
  /-- Then its text is that reserved word in upper case. -/
  reserved : token.isKeyword = true → token.text ∈ rules.keywords ∧
    ∀ reserved, upper reserved = upper (String.ofList lexeme.text) → token.text = upper reserved
  /-- Otherwise it is shown as the lexeme is, and its kind does not depend on the rules. -/
  plain : token.isKeyword = false →
    token.kind = lexeme.kind.unreserved ∧ token.text = String.ofList lexeme.text
  /-- Delimited identifiers and parts of dotted names are never keywords. -/
  identifier : lexeme.kind = .delimited ∨ lexeme.kind = .word ∧ ¬ Unqualified front back →
    token.kind = .identifier

/-- What is made of a lexeme between others is what the rules say of it. -/
theorem Lexeme.becomes_ofLexeme (rules : Rules) (front : List Lexeme) (lexeme : Lexeme)
    (back : List Lexeme) :
    lexeme.Becomes rules front back (.ofLexeme rules (Position.start.advanceBy (sourceOf front))
      (Lexeme.qualified (Tile.endsInPeriod false front) back) lexeme) := by
  rw [Token.ofLexeme_eq]
  split
  · next hKeyword =>
    obtain ⟨hKind, hQualified, hReserved⟩ := hKeyword
    have hApart := qualified_eq_false_iff.mp hQualified
    refine ⟨rfl, iff_of_true rfl ⟨hKind, hApart, Rules.isKeyword_iff.mp hReserved⟩, ?_, nofun, ?_⟩
    · intro _
      exact ⟨WordSet.contains_eq_true_iff.mp hReserved, fun reserved hSame => hSame.symm⟩
    · rintro (hDelimited | ⟨-, hNot⟩)
      · rw [hKind] at hDelimited
        cases hDelimited
      · exact absurd hApart hNot
  · next hOther =>
    have hNot : (⟨String.ofList lexeme.text, lexeme.kind.unreserved,
        Position.start.advanceBy (sourceOf front)⟩ : Token).isKeyword = false :=
      decide_eq_false (LexemeKind.unreserved_ne_keyword _)
    refine ⟨rfl, ?_, ?_, fun _ => ⟨rfl, rfl⟩, ?_⟩
    · rw [hNot]
      refine iff_of_false nofun ?_
      rintro ⟨hKind, hApart, hReserved⟩
      exact hOther ⟨hKind, qualified_eq_false_iff.mpr hApart, Rules.isKeyword_iff.mpr hReserved⟩
    · rw [hNot]
      nofun
    · rintro (hDelimited | ⟨hWord, -⟩)
      · show lexeme.kind.unreserved = .identifier
        rw [hDelimited]
        rfl
      · show lexeme.kind.unreserved = .identifier
        rw [hWord]
        rfl

/-- A script has the same fault under all rules, or it has the same lexemes. Then the tokens of two
dialects are alike, one for each lexeme, and a token is a keyword if and only if its lexeme is a
reserved word of the dialect on its own. -/
theorem tokenize_classified (script : String) :
    (∃ position detail, ∀ rules,
        tokenize rules script = .error (.untokenizable position detail)) ∨
      ∃ lexemes, lex script.toList = ⟨lexemes, none⟩ ∧ ∀ rules : Rules,
        ∃ tokens, tokenize rules script = .ok tokens ∧ tokens.length = lexemes.length ∧
          (∀ front lexeme back, lexemes = front ++ lexeme :: back →
            ∃ token ∈ tokens[front.length]?, lexeme.Becomes rules front back token) ∧
          ∀ rules' : Rules, ∃ others, tokenize rules' script = .ok others ∧
            List.Forall₂ Token.Alike tokens others := by
  unfold tokenize
  cases hLexed : lex script.toList with
  | mk lexemes fault =>
    -- A fault is found before any word is looked up, so it is the same under all rules.
    cases fault with
    | some fault => exact .inl ⟨_, _, fun rules => rfl⟩
    | none =>
      refine .inr ⟨lexemes, rfl, fun rules => ?_⟩
      refine ⟨Token.ofLexemes rules lexemes, rfl, ?_, ?_, fun rules' => ?_⟩
      · exact Token.length_ofLexemesAfter rules Position.start false lexemes
      · rintro front lexeme back rfl
        exact ⟨_, Token.getElem?_ofLexemesAfter rules Position.start false front lexeme back,
          Lexeme.becomes_ofLexeme rules front lexeme back⟩
      · exact ⟨Token.ofLexemes rules' lexemes, rfl,
          Token.alike_ofLexemesAfter rules rules' Position.start false lexemes⟩

/-- Of three words with the letters of `END` the one behind a number is a keyword. The first one is
part of a dotted name, the last one has delimiters. A word that only one dialect reserves is a
keyword there alone. -/
example :
    let front : List Token := [⟨"e", .identifier, ⟨1, 1⟩⟩, ⟨".", .operator, ⟨1, 2⟩⟩,
      ⟨"end", .identifier, ⟨1, 3⟩⟩, ⟨" ", .whitespace, ⟨1, 6⟩⟩, ⟨"1.", .literal, ⟨1, 7⟩⟩,
      ⟨"END", .keyword, ⟨1, 9⟩⟩, ⟨" ", .whitespace, ⟨1, 12⟩⟩, ⟨"END", .identifier, ⟨1, 13⟩⟩,
      ⟨" ", .whitespace, ⟨1, 18⟩⟩]
    tokenize Dialect.hsqldb.rules "e.end 1.end \"END\" view" =
        .ok (front ++ [⟨"view", .identifier, ⟨1, 19⟩⟩]) ∧
      tokenize Dialect.generic.rules "e.end 1.end \"END\" view" =
        .ok (front ++ [⟨"VIEW", .keyword, ⟨1, 19⟩⟩]) := by
  decide +kernel

end SqlScript
