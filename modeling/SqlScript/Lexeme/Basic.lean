/-!
# Lexemes

A lexeme is a piece of a script that belongs together: a word, a literal, an operator, a blank or
a comment. It keeps the characters it was read from, its `source`, beside the text it is shown
with, its `text`. The two differ where a notation is brought into one form: doubled quotes,
escapes, the letter case of a literal's opening letter.

A script that has no next lexeme has a `Fault`, which says why and how far after the start of the
lexeme.
-/

namespace SqlScript

/-- The kinds of lexeme. -/
inductive LexemeKind where
  /-- A word without delimiters, which may be reserved. -/
  | word
  /-- A delimited identifier. -/
  | delimited
  /-- A number or a string. -/
  | literal
  /-- An operator, a bracket, a comma or any character without a use of its own. -/
  | operator
  /-- A period between the parts of a qualified name. -/
  | period
  /-- The mark between two statements. -/
  | terminator
  /-- A blank character, or one line end. -/
  | blank
  /-- A comment. -/
  | comment
  deriving DecidableEq, Repr, Inhabited

/-- A piece of a script that belongs together. -/
structure Lexeme where
  kind : LexemeKind
  /-- The text it is shown with. -/
  text : List Char
  /-- The characters it was read from. -/
  source : List Char
  deriving DecidableEq, Repr, Inhabited

/-- The lexeme that is shown as it is written. -/
def Lexeme.verbatim (kind : LexemeKind) (source : List Char) : Lexeme := ⟨kind, source, source⟩

/-! ## Faults -/

/-- What can be wrong with a script as a sequence of lexemes. -/
inductive Cause where
  /-- A string literal is not closed. -/
  | openString
  /-- A string literal with escapes is not closed, or an escape in it stands for no character. -/
  | openEscapeString
  /-- A string literal with Unicode escapes is not closed. -/
  | openUnicodeString
  /-- The script ends within a Unicode escape. -/
  | truncatedEscape
  /-- A Unicode escape has a character that is no hexadecimal digit. -/
  | badHexDigit (c : Char)
  /-- A Unicode escape is the number of no character. -/
  | badCodePoint (n : Nat)
  /-- A delimited identifier is not closed. -/
  | openIdentifier (delimiter : Char)
  /-- A block comment is not closed. -/
  | openComment
  /-- A dollar quotation without a tag is not closed. -/
  | openDollarString
  /-- A dollar quotation with a tag is not closed. -/
  | openTaggedString
  deriving DecidableEq, Repr, Inhabited

/-- The wording of a cause. -/
def Cause.message : Cause → String
  | openString => "Unterminated string literal"
  | openEscapeString => "Unterminated encoded string literal"
  | openUnicodeString => "Unterminated unicode encoded string literal"
  | truncatedEscape => "Unexpected EOF while parsing hex digit in escaped unicode string."
  | badHexDigit c => s!"Invalid hex digit in escaped unicode string: {c}"
  | badCodePoint n => "Invalid unicode character: " ++ String.ofList (Nat.toDigits 16 n)
  | openIdentifier delimiter => s!"Expected close delimiter \x27{delimiter}\x27 before EOF."
  | openComment => "Unexpected EOF while in a multi-line comment"
  | openDollarString => "Unterminated dollar-quoted string"
  | openTaggedString => "Unterminated dollar-quoted, expected $"

/-- Why there is no next lexeme, and where that is reported. -/
structure Fault where
  cause : Cause
  /-- The characters between the start of the lexeme and the place of the report. -/
  before : List Char
  deriving DecidableEq, Repr, Inhabited

end SqlScript
