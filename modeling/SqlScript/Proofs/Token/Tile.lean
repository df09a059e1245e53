import SqlScript.Proofs.Lexeme.Source
import SqlScript.Token

/-!
# Tokens and the characters they stand for

A token does not keep the characters that it was made from. A `Tile` is a token together with its
lexeme, and a script without fault is covered by its tiles: `Tiling` says that every tile starts
where the one before it ends, and that its first character shows of what sort it is.

## Results

* `tiling_append`         — a tiling can be cut between any two tiles.
* `Tile.ofLexemesAfter_append` — where no period follows, the tiles in front of a place do not
  depend on what comes after it.
-/

namespace SqlScript

/-! ## Kinds of token -/

namespace Token

variable (rules : Rules) (position : Position) (qualified : Bool) (lexeme : Lexeme)

/-- Terminators are made of terminators, under all rules. -/
theorem isTerminator_ofLexeme :
    (ofLexeme rules position qualified lexeme).isTerminator =
      decide (lexeme.kind = .terminator) := by
  unfold ofLexeme Lexeme.classify isTerminator
  cases lexeme.kind
  case word => dsimp only; split <;> rfl
  all_goals rfl

/-- Blanks and comments are made of blanks and comments, under all rules. -/
theorem isTrivia_ofLexeme :
    (ofLexeme rules position qualified lexeme).isTrivia =
      decide (lexeme.kind = .blank ∨ lexeme.kind = .comment) := by
  unfold ofLexeme Lexeme.classify isTrivia
  cases lexeme.kind
  case word => dsimp only; split <;> rfl
  all_goals rfl

/-- Keywords are made of words that are reserved and stand next to no period. -/
theorem isKeyword_ofLexeme :
    (ofLexeme rules position qualified lexeme).isKeyword =
      (decide (lexeme.kind = .word) && !qualified &&
        rules.isKeyword (String.ofList lexeme.text)) := by
  unfold ofLexeme Lexeme.classify isKeyword
  cases lexeme.kind
  case word =>
    dsimp only
    split
    · next h => simp [h]
    · next h =>
      cases qualified <;> simp_all
  all_goals rfl

variable {rules position qualified lexeme} in
/-- A keyword is made of a reserved word on its own. -/
theorem of_isKeyword_ofLexeme
    (h : (ofLexeme rules position qualified lexeme).isKeyword = true) :
    lexeme.kind = .word ∧ qualified = false ∧
      rules.isKeyword (String.ofList lexeme.text) = true := by
  rw [isKeyword_ofLexeme, Bool.and_eq_true, Bool.and_eq_true, decide_eq_true_eq,
    Bool.not_eq_true'] at h
  obtain ⟨⟨hKind, hQualified⟩, hReserved⟩ := h
  exact ⟨hKind, hQualified, hReserved⟩

variable {rules lexeme} in
/-- A reserved word on its own becomes a keyword. -/
theorem ofLexeme_keyword (hKind : lexeme.kind = .word)
    (hKeyword : rules.isKeyword (String.ofList lexeme.text) = true) :
    ofLexeme rules position false lexeme =
      ⟨upper (String.ofList lexeme.text), .keyword, position⟩ := by
  unfold ofLexeme Lexeme.classify
  simp [hKind, hKeyword]

/-- Literals are made of literals. -/
theorem isLiteral_ofLexeme :
    (ofLexeme rules position qualified lexeme).kind = .literal ↔ lexeme.kind = .literal := by
  unfold ofLexeme Lexeme.classify
  cases lexeme.kind
  case word => dsimp only; split <;> simp
  all_goals simp

/-- Only of a word it matters whether it is next to a period. -/
theorem ofLexeme_of_kind {lexeme : Lexeme} (h : lexeme.kind ≠ .word) (qualified' : Bool) :
    ofLexeme rules position qualified lexeme = ofLexeme rules position qualified' lexeme := by
  unfold ofLexeme Lexeme.classify
  cases hKind : lexeme.kind
  case word => exact absurd hKind h
  all_goals rfl

end Token

/-- A blank character starts a blank, which holds no other characters. -/
theorem readLexeme_blank {c : Char} (h : isBlank c = true) (rest : List Char) {lexeme : Lexeme}
    (hRead : readLexeme c rest = .ok lexeme) :
    lexeme.kind = .blank ∧ ∀ d ∈ lexeme.source, isBlank d = true := by
  obtain ⟨result, hBlank, hResult⟩ : ∃ result, LexicalRule.blank c rest = some (.ok result) ∧
      result.kind = .blank ∧ ∀ d ∈ result.source, isBlank d = true := by
    have hSingle : ∀ d ∈ [c], isBlank d = true := by simp [h]
    -- A return may take up a newline, and both are blanks.
    unfold LexicalRule.blank
    split
    · exact ⟨_, rfl, rfl, hSingle⟩
    · split
      · split
        · exact ⟨_, rfl, rfl, List.all_eq_true.mp rfl⟩
        · exact ⟨_, rfl, rfl, List.all_eq_true.mp rfl⟩
      · split
        · exact ⟨_, rfl, rfl, hSingle⟩
        · exact ⟨_, rfl, rfl, hSingle⟩
  simp only [readLexeme, LexicalRule.all, List.findSome?_cons, hBlank, Option.getD_some] at hRead
  cases hRead
  exact hResult

/-! ## Tiles -/

/-- A token together with the lexeme that it was made from. -/
structure Tile where
  lexeme : Lexeme
  token : Token

/-- The characters that some tiles stand for. -/
def textOf (tiles : List Tile) : List Char := sourceOf (tiles.map Tile.lexeme)

@[simp] theorem textOf_nil : textOf [] = [] := rfl

@[simp] theorem textOf_cons (tile : Tile) (rest : List Tile) :
    textOf (tile :: rest) = tile.lexeme.source ++ textOf rest := rfl

@[simp] theorem textOf_append (front back : List Tile) :
    textOf (front ++ back) = textOf front ++ textOf back := by
  simp [textOf]

/-- A tile has a first character, and that is blank only if the tile is trivia. -/
structure Tile.Genuine (tile : Tile) : Prop where
  ne_nil : tile.lexeme.source ≠ []
  head : tile.token.isTrivia = false → ∀ c ∈ tile.lexeme.source.head?, isBlank c = false

/-- The tiles are genuine, and from the position on each starts where the one before it ends. -/
def Tiling : Position → List Tile → Prop
  | _, [] => True
  | position, tile :: rest =>
    (tile.token.start = position ∧ tile.Genuine) ∧
      Tiling (position.advanceBy tile.lexeme.source) rest

theorem tiling_append {position : Position} {front back : List Tile} :
    Tiling position (front ++ back) ↔
      Tiling position front ∧ Tiling (position.advanceBy (textOf front)) back := by
  induction front generalizing position with
  | nil => simp [Tiling]
  | cons tile rest ih =>
    simp only [List.cons_append, Tiling, textOf_cons, Position.advanceBy_append, ih]
    exact and_assoc.symm

theorem Tiling.genuine {position : Position} {tiles : List Tile} (h : Tiling position tiles)
    {tile : Tile} (hMem : tile ∈ tiles) : tile.Genuine := by
  obtain ⟨front, back, rfl⟩ := List.append_of_mem hMem
  exact (tiling_append.mp h).2.1.2

/-- A tile starts where the tiles in front of it end. -/
theorem Tiling.start_eq {position : Position} {front back : List Tile} {tile : Tile}
    (h : Tiling position (front ++ tile :: back)) :
    tile.token.start = position.advanceBy (textOf front) :=
  (tiling_append.mp h).2.1.1

/-! ## The tiles of a script -/

/-- The tiles of the lexemes that follow a position and perhaps a period. -/
def Tile.ofLexemesAfter (rules : Rules) (position : Position) (afterPeriod : Bool) :
    List Lexeme → List Tile
  | [] => []
  | lexeme :: rest =>
    ⟨lexeme, .ofLexeme rules position (Lexeme.qualified afterPeriod rest) lexeme⟩ ::
      ofLexemesAfter rules (position.advanceBy lexeme.source) lexeme.isPeriod rest

namespace Tile

variable (rules : Rules) (position : Position) (afterPeriod : Bool) (lexemes : List Lexeme)

/-- The tokens of the tiles are those that are made of the lexemes. -/
theorem map_token_ofLexemesAfter :
    (ofLexemesAfter rules position afterPeriod lexemes).map token =
      Token.ofLexemesAfter rules position afterPeriod lexemes := by
  induction lexemes generalizing position afterPeriod with
  | nil => rfl
  | cons lexeme rest ih => rw [Token.ofLexemesAfter_cons, ofLexemesAfter, List.map_cons, ih]

/-- The lexemes of the tiles are the lexemes that they are made from. -/
theorem map_lexeme_ofLexemesAfter :
    (ofLexemesAfter rules position afterPeriod lexemes).map lexeme = lexemes := by
  induction lexemes generalizing position afterPeriod with
  | nil => rfl
  | cons lexeme rest ih => rw [ofLexemesAfter, List.map_cons, ih]

/-- The tiles stand for all characters of the lexemes. -/
theorem textOf_ofLexemesAfter :
    textOf (ofLexemesAfter rules position afterPeriod lexemes) = sourceOf lexemes := by
  rw [textOf, map_lexeme_ofLexemesAfter]

variable {rules position afterPeriod lexemes} in
/-- The token of a tile is made of its lexeme. -/
theorem token_of_mem {tile : Tile}
    (h : tile ∈ ofLexemesAfter rules position afterPeriod lexemes) :
    ∃ start qualified, tile.token = .ofLexeme rules start qualified tile.lexeme := by
  induction lexemes generalizing position afterPeriod with
  | nil => cases h
  | cons lexeme rest ih =>
    rcases List.mem_cons.mp h with rfl | hRest
    · exact ⟨_, _, rfl⟩
    · exact ih hRest

variable {rules position afterPeriod lexemes} in
theorem isTerminator_of_mem {tile : Tile}
    (h : tile ∈ ofLexemesAfter rules position afterPeriod lexemes) :
    tile.token.isTerminator = decide (tile.lexeme.kind = .terminator) := by
  obtain ⟨start, qualified, hToken⟩ := token_of_mem h
  rw [hToken, Token.isTerminator_ofLexeme]

variable {rules position afterPeriod lexemes} in
theorem isTrivia_of_mem {tile : Tile}
    (h : tile ∈ ofLexemesAfter rules position afterPeriod lexemes) :
    tile.token.isTrivia = decide (tile.lexeme.kind = .blank ∨ tile.lexeme.kind = .comment) := by
  obtain ⟨start, qualified, hToken⟩ := token_of_mem h
  rw [hToken, Token.isTrivia_ofLexeme]

/-- Whether a period stands before what follows some lexemes. -/
def endsInPeriod : Bool := lexemes.foldl (fun _ lexeme => lexeme.isPeriod) afterPeriod

/-- Tiles in front of a place where no period follows do not depend on what does follow. -/
theorem ofLexemesAfter_append (front : List Lexeme) {back : List Lexeme}
    (h : back.head?.any Lexeme.isPeriod = false) :
    ofLexemesAfter rules position afterPeriod (front ++ back) =
      ofLexemesAfter rules position afterPeriod front ++
        ofLexemesAfter rules (position.advanceBy (sourceOf front))
          (endsInPeriod afterPeriod front) back := by
  induction front generalizing position afterPeriod with
  | nil => rfl
  | cons lexeme rest ih =>
    -- Only the last lexeme in front has the seam next to it, and no period follows there.
    have hQualified : Lexeme.qualified afterPeriod (rest ++ back) =
        Lexeme.qualified afterPeriod rest := by
      cases rest with
      | nil => simp [Lexeme.qualified, h]
      | cons next rest => rfl
    have hEnds : endsInPeriod afterPeriod (lexeme :: rest) =
        endsInPeriod lexeme.isPeriod rest := rfl
    simp only [List.cons_append, ofLexemesAfter, ih, hQualified, hEnds, sourceOf_cons,
      Position.advanceBy_append]

variable {rules position afterPeriod lexemes} in
/-- Tiles are made of the lexemes that they come with, also some of them at the end, and those in
front of them if they do not start with a period. -/
theorem ofLexemesAfter_eq_append {front back : List Tile}
    (h : ofLexemesAfter rules position afterPeriod lexemes = front ++ back) :
    lexemes = front.map lexeme ++ back.map lexeme ∧
      back = ofLexemesAfter rules (position.advanceBy (textOf front))
        (endsInPeriod afterPeriod (front.map lexeme)) (back.map lexeme) ∧
      ((back.map lexeme).head?.any Lexeme.isPeriod = false →
        front = ofLexemesAfter rules position afterPeriod (front.map lexeme)) := by
  have hLexemes := map_lexeme_ofLexemesAfter rules position afterPeriod lexemes
  rw [h, List.map_append] at hLexemes
  subst hLexemes
  -- The tiles at the end are made with what is known of those in front: where they end, and whether
  -- in a period.
  have hBack : back = ofLexemesAfter rules (position.advanceBy (textOf front))
      (endsInPeriod afterPeriod (front.map lexeme)) (back.map lexeme) := by
    induction front generalizing position afterPeriod with
    | nil => exact h.symm
    | cons tile rest ih =>
      rw [List.map_cons, List.cons_append, ofLexemesAfter, List.cons_append] at h
      have hRest := ih (List.cons.inj h).2
      rw [textOf_cons, Position.advanceBy_append]
      exact hRest
  refine ⟨rfl, hBack, fun hPeriod => ?_⟩
  rw [ofLexemesAfter_append rules position afterPeriod (front.map lexeme) hPeriod] at h
  exact (List.append_cancel_right (h.trans (congrArg (front ++ ·) hBack))).symm

end Tile

/-- The tiles of lexemes that are read one after another are a tiling. -/
theorem tiling_ofLexemesAfter (rules : Rules) (position : Position) (afterPeriod : Bool)
    {lexemes : List Lexeme} {after : List Char} (h : Lexes lexemes after) :
    Tiling position (Tile.ofLexemesAfter rules position afterPeriod lexemes) := by
  induction lexemes generalizing position afterPeriod with
  | nil => trivial
  | cons lexeme rest ih =>
    obtain ⟨⟨c, taken, hSource, hRead⟩, hRest⟩ := h
    refine ⟨⟨rfl, (readLexeme_readFrom hRead).ne_nil, ?_⟩, ih _ _ hRest⟩
    intro hTrivia d hd
    rw [hSource, List.head?_cons, Option.mem_some_iff] at hd
    subst hd
    -- A lexeme that starts with a blank is one, and so it would be trivia.
    by_contra hBlank
    rw [Bool.not_eq_false] at hBlank
    have hKind := (readLexeme_blank hBlank _ hRead).1
    rw [Token.isTrivia_ofLexeme, hKind] at hTrivia
    exact absurd hTrivia (by decide)

/-- A script that has tokens has lexemes that make it up. -/
theorem lexes_of_tokenize {rules : Rules} {script : String} {tokens : List Token}
    (h : tokenize rules script = .ok tokens) :
    ∃ lexemes, lex script.toList = ⟨lexemes, none⟩ ∧ tokens = Token.ofLexemes rules lexemes := by
  unfold tokenize at h
  dsimp only at h
  split at h
  · cases h
  · next hFault =>
    cases h
    exact ⟨_, by rw [← hFault], rfl⟩

end SqlScript
