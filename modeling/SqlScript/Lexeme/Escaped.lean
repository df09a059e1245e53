import SqlScript.Lexeme.Quoted
import SqlScript.Lexeme.Digits

/-!
# String literals with escapes

Two kinds of string literal write characters by number.

* The literals of the opening letter `E` have the escapes `\b`, `\f`, `\n`, `\r`, `\t`, `\u` with
  four and `\U` with eight hexadecimal digits, which a plus sign may open, `\x` with up to two
  hexadecimal digits and a backslash with up to three octal ones. A number of one byte has to be
  below 128, and none may be zero. A backslash before any other character stands for that
  character.
* The literals of the opening letters `U&` have a backslash with four hexadecimal digits, a
  backslash and a plus sign with six, and a doubled backslash for itself.
-/

namespace SqlScript

/-! ## Letter escapes and bytes -/

/-- Where a reader of a literal with letter escapes is. -/
inductive EscapeState where
  /-- Within the text. -/
  | inside
  /-- After a quote, which ends the text unless another one follows. -/
  | afterQuote
  /-- After a backslash. -/
  | afterBackslash
  /-- Before the digits of a code point, as many as said. -/
  | codePoint (digits : Nat)
  /-- Within a code point, with so many digits to come after the value so far. -/
  | codePointDigits (left value : Nat)
  /-- Before the digits of a hexadecimal byte. -/
  | hexByte
  /-- Within a byte of a radix, with at most so many digits to come after the value so far. -/
  | byteDigits (radix left value : Nat)
  deriving DecidableEq, Repr

namespace EscapeState

/-- The character that a backslash and a letter stand for. -/
def letter (c : Char) : Char :=
  match c with
  | 'b' => '\x08'
  | 'f' => '\x0c'
  | 'n' => '\n'
  | 'r' => '\r'
  | 't' => '\t'
  | c => c

/-- The character of a byte, which is neither zero nor above 127. Bits above the eighth are
dropped. -/
def byteChar (value : Nat) : Option Char :=
  let byte := value % 256
  if 0 < byte ∧ byte < 128 then some (Char.ofNat byte) else none

/-- The end of an escape with its last character: its meaning is added to the content, unless it
has none or is the zero character. -/
def conclude : Option Char → Move EscapeState
  | some c => if c = '\x00' then .spoil .openEscapeString else .take inside [c]
  | none => .spoil .openEscapeString

/-- What a character does within the text. -/
def plain (c : Char) : Move EscapeState :=
  if c = singleQuote then .take afterQuote []
  else if c = backslash then .take afterBackslash []
  else .take inside [c]

/-- The end of an escape before a character that is no part of it. -/
def concludeBefore (meaning : Option Char) (c : Char) : Move EscapeState :=
  match meaning with
  | some meant => (plain c).after [meant]
  | none => .spoil .openEscapeString

/-- One more digit of a code point. -/
def codePointDigit (left value : Nat) (c : Char) : Move EscapeState :=
  match digitOf 16 c with
  | some digit =>
    let value := value * 16 + digit
    if left ≤ 1 then conclude (charOfCodePoint value)
    else .take (codePointDigits (left - 1) value) []
  | none => .spoil .openEscapeString

/-- What a character does after a backslash. -/
def escape (c : Char) : Move EscapeState :=
  if c = 'u' then .take (codePoint 4) []
  else if c = 'U' then .take (codePoint 8) []
  else if c = 'x' then .take hexByte []
  else
    match digitOf 8 c with
    | some digit => .take (byteDigits 8 2 digit) []
    | none => conclude (letter c)

/-- One more digit of a byte, or the end of the byte. -/
def byteDigit (radix left value : Nat) (c : Char) : Move EscapeState :=
  match digitOf radix c with
  | some digit =>
    let value := value * radix + digit
    if left ≤ 1 then conclude (byteChar value)
    else .take (byteDigits radix (left - 1) value) []
  | none => concludeBefore (byteChar value) c

/-- What a character does in a state. -/
def step : EscapeState → Char → Move EscapeState
  | inside, c => plain c
  | afterQuote, c => if c = singleQuote then .take inside [c] else .leave
  | afterBackslash, c => escape c
  | codePoint digits, c =>
    -- A plus sign takes the place of one digit.
    if c = '+' then .take (codePointDigits (digits - 1) 0) [] else codePointDigit digits 0 c
  | codePointDigits left value, c => codePointDigit left value c
  | hexByte, c =>
    -- Without a digit the letter stands for itself.
    match digitOf 16 c with
    | some digit => .take (byteDigits 16 1 digit) []
    | none => concludeBefore (some 'x') c
  | byteDigits radix left value, c => byteDigit radix left value c

end EscapeState

/-- The reader of a literal with letter escapes. -/
def escapeReader : Reader EscapeState where
  step := EscapeState.step
  atEnd
    | .afterQuote => none
    | _ => some .openEscapeString

/-- A string literal with letter escapes after its opening letter and quote; a fault is reported at
the letter. -/
def escapeString (opening : Char) (rest : List Char) : Except Fault Lexeme :=
  quotedLiteral .literal [opening] singleQuote (fun _ => []) (escapeReader.read .inside rest)

/-! ## Unicode escapes -/

/-- Where a reader of a literal with Unicode escapes is. -/
inductive UnicodeState where
  /-- Within the text. -/
  | inside
  /-- After a quote, which ends the text unless another one follows. -/
  | afterQuote
  /-- After a backslash. -/
  | afterBackslash
  /-- Within a code point, with so many digits to come after the value so far. -/
  | digits (left value : Nat)
  deriving DecidableEq, Repr

namespace UnicodeState

/-- One more digit of a code point. -/
def digit (left value : Nat) (c : Char) : Move UnicodeState :=
  match digitOf 16 c with
  | none => .spoil (.badHexDigit c)
  | some d =>
    let value := value * 16 + d
    if left ≤ 1 then
      match charOfCodePoint value with
      | some meaning => .take inside [meaning]
      | none => .spoil (.badCodePoint value)
    else .take (digits (left - 1) value) []

/-- What a character does in a state. -/
def step : UnicodeState → Char → Move UnicodeState
  | inside, c =>
    if c = singleQuote then .take afterQuote []
    else if c = backslash then .take afterBackslash []
    else .take inside [c]
  | afterQuote, c => if c = singleQuote then .take inside [c] else .leave
  | afterBackslash, c =>
    if c = backslash then .take inside [c]
    else if c = '+' then .take (digits 6 0) []
    else digit 4 0 c
  | digits left value, c => digit left value c

end UnicodeState

/-- The reader of a literal with Unicode escapes. -/
def unicodeReader : Reader UnicodeState where
  step := UnicodeState.step
  atEnd
    | .afterQuote => none
    | .inside => some .openUnicodeString
    | _ => some .truncatedEscape

/-- A string literal with Unicode escapes after its opening letter, ampersand and quote; a fault is
reported after the characters that were taken. -/
def unicodeString (opening : Char) (rest : List Char) : Except Fault Lexeme :=
  let letters := [opening, '&']
  quotedLiteral .operator letters singleQuote (fun taken => letters ++ singleQuote :: taken)
    (unicodeReader.read .inside rest)

end SqlScript
