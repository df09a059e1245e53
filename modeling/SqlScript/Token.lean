import SqlScript.Dialect.Rules
import SqlScript.Lexeme.Lexed

/-!
# Tokens

A token is a lexeme with its position in the script and, for a word, the answer whether the
dialect reserves it. A word next to a period is part of a qualified name and never a keyword; the
text of a keyword is in upper case.

* `Lexeme.classify` says what becomes of a lexeme;
* `Token.ofLexemes` makes the tokens of a sequence of lexemes, and `ofLexemesAfter_cons` unfolds it
  from left to right;
* `tokenize` cuts a whole script into tokens or says what is wrong with it.
-/

namespace SqlScript

/-- The kinds of token. -/
inductive TokenKind where
  /-- A reserved word of the dialect. -/
  | keyword
  /-- Any other word, and a delimited identifier. -/
  | identifier
  | literal
  | operator
  | terminator
  | whitespace
  | comment
  deriving DecidableEq, Repr, Inhabited

/-- A piece of a script with its kind and the position of its first character. -/
structure Token where
  text : String
  kind : TokenKind
  start : Position
  deriving DecidableEq, Repr, Inhabited

namespace Token

/-- Whether the token is a reserved word. -/
def isKeyword (token : Token) : Bool := token.kind = .keyword

/-- Whether the token is the mark between two statements. -/
def isTerminator (token : Token) : Bool := token.kind = .terminator

/-- Whether the token is a blank or a comment. -/
def isTrivia (token : Token) : Bool := token.kind = .whitespace ∨ token.kind = .comment

end Token

/-! ## From lexemes to tokens -/

/-- Whether the lexeme is a period between the parts of a name. -/
def Lexeme.isPeriod (lexeme : Lexeme) : Bool := lexeme.kind = .period

/-- The kind and the text of a lexeme. Only a word that is no part of a qualified name can be a
keyword. -/
def Lexeme.classify (rules : Rules) (qualified : Bool) (lexeme : Lexeme) : TokenKind × String :=
  let text := String.ofList lexeme.text
  match lexeme.kind with
  | .word =>
    if ¬ qualified ∧ rules.isKeyword text then (.keyword, upper text) else (.identifier, text)
  | .delimited => (.identifier, text)
  | .literal => (.literal, text)
  | .operator | .period => (.operator, text)
  | .terminator => (.terminator, text)
  | .blank => (.whitespace, text)
  | .comment => (.comment, text)

/-- The token of a lexeme at a position. -/
def Token.ofLexeme (rules : Rules) (position : Position) (qualified : Bool) (lexeme : Lexeme) :
    Token :=
  let (kind, text) := lexeme.classify rules qualified
  ⟨text, kind, position⟩

/-- Whether a lexeme is next to a period, given whether it follows one. -/
def Lexeme.qualified (afterPeriod : Bool) (rest : List Lexeme) : Bool :=
  afterPeriod || rest.head?.any Lexeme.isPeriod

/-- The tokens of the lexemes that follow a position and perhaps a period, after those already
made. -/
def Token.collect (rules : Rules) (tokens : Array Token) (position : Position)
    (afterPeriod : Bool) : List Lexeme → Array Token
  | [] => tokens
  | lexeme :: rest =>
    let token := ofLexeme rules position (Lexeme.qualified afterPeriod rest) lexeme
    collect rules (tokens.push token) (position.advanceBy lexeme.source) lexeme.isPeriod rest

/-- The tokens of the lexemes that follow a position and perhaps a period. -/
def Token.ofLexemesAfter (rules : Rules) (position : Position) (afterPeriod : Bool)
    (lexemes : List Lexeme) : List Token :=
  (Token.collect rules #[] position afterPeriod lexemes).toList

/-- The tokens of the lexemes of a script. -/
def Token.ofLexemes (rules : Rules) (lexemes : List Lexeme) : List Token :=
  Token.ofLexemesAfter rules Position.start false lexemes

/-- The tokens made before only stand in front of the result. -/
theorem Token.toList_collect (rules : Rules) (tokens : Array Token) (position : Position)
    (afterPeriod : Bool) (lexemes : List Lexeme) :
    (collect rules tokens position afterPeriod lexemes).toList =
      tokens.toList ++ ofLexemesAfter rules position afterPeriod lexemes := by
  unfold ofLexemesAfter
  induction lexemes generalizing tokens position afterPeriod with
  | nil => simp [collect]
  | cons lexeme rest ih =>
    simp only [collect]
    rw [ih (tokens.push _), ih (#[].push _)]
    simp

@[simp] theorem Token.ofLexemesAfter_nil (rules : Rules) (position : Position)
    (afterPeriod : Bool) : ofLexemesAfter rules position afterPeriod [] = [] := rfl

/-- The token of a lexeme comes before those of the rest, which start where the lexeme ends. -/
theorem Token.ofLexemesAfter_cons (rules : Rules) (position : Position) (afterPeriod : Bool)
    (lexeme : Lexeme) (rest : List Lexeme) :
    ofLexemesAfter rules position afterPeriod (lexeme :: rest) =
      ofLexeme rules position (Lexeme.qualified afterPeriod rest) lexeme ::
        ofLexemesAfter rules (position.advanceBy lexeme.source) lexeme.isPeriod rest := by
  rw [ofLexemesAfter, collect, toList_collect]
  simp

/-- The tokens of a script. -/
def tokenize (rules : Rules) (script : String) : Except ScriptError (List Token) :=
  let lexed := lex script.toList
  match lexed.fault with
  | some fault => .error (.untokenizable (lexed.faultPosition fault) fault.cause.message)
  | none => .ok (Token.ofLexemes rules lexed.lexemes)

end SqlScript
