import SqlScript.Lexeme.Basic
import SqlScript.Unicode.Alphabetic
import SqlScript.Unicode.Numeric

/-!
# Words

A word starts with a letter or an underscore and goes on with letters, digits and the signs `@`,
`$`, `#` and `_`. A word may also start with the sign `#` or with one or two signs `@`; the
character after these belongs to it whatever it is, unless it is a space or missing, in which case
the signs are an operator.
-/

namespace SqlScript

/-- Whether a character may open a word. -/
def isWordStart (c : Char) : Bool := isAlphabetic c || c = '_'

/-- Whether a character may go on with a word. -/
def isWordChar (c : Char) : Bool :=
  isAlphabetic c || c.isDigit || c = '@' || c = '$' || c = '#' || c = '_'

/-- The word of an opening and the word characters after it. -/
def wordLexeme (opening rest : List Char) : Lexeme :=
  .verbatim .word (opening ++ rest.takeWhile isWordChar)

/-- The word that some signs open, or the operator that they are before a space or the end. -/
def signLexeme (signs rest : List Char) : Lexeme :=
  match rest with
  | [] => .verbatim .operator signs
  | c :: rest => if c = ' ' then .verbatim .operator signs else wordLexeme (signs ++ [c]) rest

/-- The operator of a question mark and the numeric characters after it. -/
def placeholderLexeme (rest : List Char) : Lexeme :=
  .verbatim .operator ('?' :: rest.takeWhile isNumeric)

end SqlScript
