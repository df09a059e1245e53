import SqlScript.Lexeme.Reader

/-!
# Quoted text

String literals and delimited identifiers stand between two delimiters. Within them a delimiter is
written twice. Two forms differ from that:

* literals of the opening letters `N` and `X` also have backslash escapes, `unescape`;
* raw strings may have three delimiters at each end and then hold single ones as they are,
  `tripleReader`.

`quotedLiteral` makes the lexeme of what stands between two delimiters after some opening letters.
-/

namespace SqlScript

/-- The single quote, which delimits string literals. -/
def singleQuote : Char := '\x27'

/-- The double quote. -/
def doubleQuote : Char := '\x22'

/-- The backquote. -/
def backquote : Char := '\x60'

/-- The backslash, which opens an escape. -/
def backslash : Char := '\x5c'

/-! ## One delimiter at each end -/

/-- Where a reader of quoted text is. -/
inductive QuotedState where
  /-- Within the text. -/
  | inside
  /-- After a delimiter, which ends the text unless another one follows. -/
  | afterDelimiter
  /-- After a backslash that opens an escape. -/
  | afterBackslash
  deriving DecidableEq, Repr

/-- The character that a backslash and a letter stand for. -/
def unescape (c : Char) : Char :=
  match c with
  | '0' => '\x00'
  | 'a' => '\x07'
  | 'b' => '\x08'
  | 'f' => '\x0c'
  | 'n' => '\n'
  | 'r' => '\r'
  | 't' => '\t'
  | 'Z' => '\x1a'
  | c => c

/-- The reader of what follows an opening delimiter. -/
def quotedReader (delimiter : Char) (escapes : Bool) (unclosed : Cause) : Reader QuotedState where
  step
    | .inside, c =>
      if c = delimiter then .take .afterDelimiter []
      else if escapes ∧ c = backslash then .take .afterBackslash []
      else .take .inside [c]
    | .afterDelimiter, c => if c = delimiter then .take .inside [c] else .leave
    | .afterBackslash, c => .take .inside [unescape c]
  atEnd
    | .afterDelimiter => none
    | _ => some unclosed

/-! ## Three delimiters at each end -/

/-- The reader of what follows three opening delimiters. Its state counts the delimiters that were
read last. -/
def tripleReader (delimiter : Char) : Reader Nat where
  step count c :=
    if c = delimiter then if count = 2 then .finish else .take (count + 1) [] else .take 0 []
  atEnd _ := some .openString

/-! ## Lexemes -/

/-- The lexeme of a body between two delimiters after some opening letters, which are shown in
upper case. A fault is reported `place` after the start. -/
def quotedLiteral (kind : LexemeKind) (letters : List Char) (delimiter : Char)
    (place : List Char → List Char) : Except Fault Body → Except Fault Lexeme
  | .ok body =>
    .ok ⟨kind, letters.map Char.toUpper ++ delimiter :: (body.content ++ [delimiter]),
      letters ++ delimiter :: body.source⟩
  | .error fault => .error ⟨fault.cause, place fault.before⟩

/-- A string literal after some opening letters; an unclosed one is reported at its opening
delimiter. -/
def stringLiteral (letters : List Char) (delimiter : Char) (escapes : Bool) (rest : List Char) :
    Except Fault Lexeme :=
  quotedLiteral .literal letters delimiter (fun _ => letters)
    ((quotedReader delimiter escapes .openString).read .inside rest)

/-- A raw string after its opening letter. Two delimiters are the empty string; an unclosed string
is reported after its opening delimiters. -/
def rawString (letter delimiter : Char) (rest : List Char) : Except Fault Lexeme :=
  match (rest.take 2).takeWhile (· = delimiter) with
  | [] =>
    quotedLiteral .operator [letter] delimiter (fun _ => [letter, delimiter])
      ((quotedReader delimiter false .openString).read .inside rest)
  | [_] => .ok ⟨.operator, [letter.toUpper, delimiter, delimiter], [letter, delimiter, delimiter]⟩
  | _ =>
    let opening := [delimiter, delimiter, delimiter]
    match (tripleReader delimiter).read 0 (rest.drop 2) with
    | .ok body =>
      .ok ⟨.operator, letter.toUpper :: opening ++ body.source, letter :: opening ++ body.source⟩
    | .error fault => .error ⟨fault.cause, letter :: opening⟩

/-- An identifier after its opening delimiter, shown without delimiters; an unclosed one is
reported at its opening delimiter. -/
def delimitedIdentifier (delimiter : Char) (rest : List Char) : Except Fault Lexeme :=
  match (quotedReader delimiter false (.openIdentifier delimiter)).read .inside rest with
  | .ok body => .ok ⟨.delimited, body.content, delimiter :: body.source⟩
  | .error fault => .error ⟨fault.cause, []⟩

end SqlScript
