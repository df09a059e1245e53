import SqlScript.Lexeme.Comment
import SqlScript.Lexeme.Dollar
import SqlScript.Lexeme.Escaped
import SqlScript.Lexeme.Number
import SqlScript.Lexeme.Symbol
import SqlScript.Lexeme.Word
import SqlScript.Unicode.Blank

/-!
# The lexical rules

Each rule looks at the first character of the script and at what follows it, and either makes a
lexeme, finds a fault or says nothing. The first rule that speaks decides; a character on which
every rule is silent is an operator by itself.

`readLexeme` is the outcome: every character starts a lexeme or a fault.
-/

namespace SqlScript

/-- A lexical rule: what it makes of a first character and the characters after it. -/
abbrev LexicalRule := Char → List Char → Option (Except Fault Lexeme)

namespace LexicalRule

/-- Blanks, each a lexeme of its own. Every line end is shown as a newline, and every blank without
a notation of its own as a space. -/
def blank : LexicalRule := fun c rest =>
  if c = '\n' then some (.ok (.verbatim .blank [c]))
  else if c = '\r' then
    if rest.head? = some '\n' then some (.ok ⟨.blank, ['\n'], ['\r', '\n']⟩)
    else some (.ok ⟨.blank, ['\n'], ['\r']⟩)
  else if c = '\t' then some (.ok (.verbatim .blank [c]))
  else if isBlank c then some (.ok ⟨.blank, [' '], [c]⟩)
  else none

/-- Literals with an opening letter: byte strings, raw strings, national strings, strings with
escapes and hexadecimal strings. Without a delimiter after it the letter only starts a word. -/
def lettered : LexicalRule := fun c rest =>
  match c.toUpper, rest with
  | 'B', '\x27' :: rest => some (stringLiteral [c] singleQuote false rest)
  | 'B', '\x22' :: rest => some (stringLiteral [c] doubleQuote false rest)
  | 'R', '\x27' :: rest => some (rawString c singleQuote rest)
  | 'R', '\x22' :: rest => some (rawString c doubleQuote rest)
  | 'N', '\x27' :: rest => some (stringLiteral [c] singleQuote true rest)
  | 'X', '\x27' :: rest => some (stringLiteral [c] singleQuote true rest)
  | 'E', '\x27' :: rest => some (escapeString c rest)
  | 'U', '&' :: '\x27' :: rest => some (unicodeString c rest)
  | _, _ => none

/-- String literals without an opening letter, and delimited identifiers. -/
def quoted : LexicalRule := fun c rest =>
  if c = singleQuote then some (stringLiteral [] singleQuote false rest)
  else if c = doubleQuote ∨ c = backquote then some (delimitedIdentifier c rest)
  else none

/-- Numbers and periods. -/
def number : LexicalRule := fun c rest =>
  if c.isDigit ∨ c = '.' then some (.ok (numberLexeme (c :: rest))) else none

/-- Line comments and block comments. -/
def comment : LexicalRule := fun c rest =>
  match c, rest with
  | '-', '-' :: rest => some (.ok (lineComment rest))
  | '/', '*' :: rest => some (blockComment rest)
  | _, _ => none

/-- The mark between two statements. -/
def terminator : LexicalRule := fun c _ =>
  if c = ';' then some (.ok (.verbatim .terminator [c])) else none

/-- Operators and brackets. -/
def symbol : LexicalRule := fun c rest => (symbolLexeme (c :: rest)).map .ok

/-- Words that signs open. -/
def sign : LexicalRule := fun c rest =>
  match c, rest with
  | '@', '@' :: rest => some (.ok (signLexeme ['@', '@'] rest))
  | '@', rest => some (.ok (signLexeme ['@'] rest))
  | '#', rest => some (.ok (signLexeme ['#'] rest))
  | _, _ => none

/-- Placeholders. -/
def placeholder : LexicalRule := fun c rest =>
  if c = '?' then some (.ok (placeholderLexeme rest)) else none

/-- Words that a letter or an underscore opens. -/
def word : LexicalRule := fun c rest =>
  if isWordStart c then some (.ok (wordLexeme [c] rest)) else none

/-- Dollar quotations. -/
def dollar : LexicalRule := fun c rest =>
  if c = '$' then some (dollarLexeme rest) else none

/-- Every rule, in the order in which they are asked. -/
def all : List LexicalRule :=
  [blank, lettered, quoted, number, comment, terminator, symbol, sign, placeholder, word, dollar]

end LexicalRule

/-- The lexeme that a character starts before the characters after it. -/
def readLexeme (c : Char) (rest : List Char) : Except Fault Lexeme :=
  (LexicalRule.all.findSome? fun rule => rule c rest).getD (.ok (.verbatim .operator [c]))

end SqlScript
