import SqlScript.Lexeme.Basic

/-!
# Operators

The spellings of the operators and brackets. Where one spelling continues another the longer one
comes first, so that the first that fits is the longest that fits.
-/

namespace SqlScript

/-- The spellings of operators and brackets, longer ones before those they continue. -/
def symbolSpellings : List (List Char) := List.map String.toList [
  -- Brackets and single characters that nothing continues; `\x5c` is the backslash.
  "(", ")", ",", "+", "*", "%", "\x5c", "[", "]", "\x7b", "\x7d",
  "->>", "->", "-",
  "//", "/",
  "||/", "||", "|/", "|",
  "=>", "==", "=",
  "!~~*", "!~~", "!~*", "!~", "!=", "!!", "!",
  "<=>", "<=", "<>", "<<", "<@", "<",
  ">=", ">>", ">",
  "::", ":=", ":",
  "&&", "&",
  "^@", "^",
  "~~*", "~~", "~*", "~",
  -- The signs that open words are operators before these characters only.
  "#>>", "#>", "#-",
  "@>", "@?"]

/-- The text that a spelling is shown with: inequality has one spelling. -/
def symbolText (spelling : List Char) : List Char :=
  if spelling = ['!', '='] then ['<', '>'] else spelling

/-- The operator that the characters start with. -/
def symbolLexeme (chars : List Char) : Option Lexeme :=
  (symbolSpellings.find? (·.isPrefixOf chars)).map fun spelling =>
    ⟨.operator, symbolText spelling, spelling⟩

end SqlScript
