import SqlScript.Lexeme.Quoted
import SqlScript.Lexeme.Digits

/-!
# Numbers

A number has digits with or without a period, then an exponent, then the letter `L`; each part may
be missing. The digit zero before a small `x` opens a hexadecimal number, which is shown as a
hexadecimal literal. A period without digits separates the parts of a name.
-/

namespace SqlScript

/-- The period and the digits after it that the characters start with. -/
def fractionOf : List Char → List Char
  | '.' :: rest => '.' :: rest.takeWhile Char.isDigit
  | _ => []

/-- The sign that the characters start with. -/
def signOf : List Char → List Char
  | '+' :: _ => ['+']
  | '-' :: _ => ['-']
  | _ => []

/-- The exponent that the characters start with, which has at least one digit. -/
def exponentOf : List Char → List Char
  | [] => []
  | c :: rest =>
    let sign := signOf rest
    let digits := (rest.drop sign.length).takeWhile Char.isDigit
    if (c = 'e' ∨ c = 'E') ∧ digits ≠ [] then c :: (sign ++ digits) else []

/-- The letter of a long number that the characters start with. -/
def suffixOf : List Char → List Char
  | 'L' :: _ => ['L']
  | _ => []

/-- The number or period that the characters start with; their first one is a digit or a period. -/
def numberLexeme (chars : List Char) : Lexeme :=
  let whole := chars.takeWhile Char.isDigit
  let rest := chars.drop whole.length
  -- A zero before an `x` is no decimal number, even without digits after it.
  if whole = ['0'] ∧ rest.head? = some 'x' then
    let digits := (rest.drop 1).takeWhile (isDigitOf 16)
    ⟨.literal, 'X' :: singleQuote :: (digits ++ [singleQuote]), '0' :: 'x' :: digits⟩
  else
    let decimal := whole ++ fractionOf rest
    if decimal = ['.'] then .verbatim .period decimal
    else
      let rest := chars.drop decimal.length
      let exponent := exponentOf rest
      let suffix := suffixOf (rest.drop exponent.length)
      .verbatim .literal (decimal ++ exponent ++ suffix)

end SqlScript
