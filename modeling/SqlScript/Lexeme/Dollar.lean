import SqlScript.Lexeme.Reader
import SqlScript.Unicode.Alphabetic
import SqlScript.Unicode.Numeric

/-!
# Dollar quotation

A literal may stand between two dollar pairs, `$$ … $$`, or between two tags, `$tag$ … $tag$`. Its
content has no escapes. A dollar sign that opens neither is an operator together with the letters,
digits and underscores after it.
-/

namespace SqlScript

/-- Whether a character may take part in the tag of a dollar quotation. -/
def isTagChar (c : Char) : Bool := isAlphabetic c || isNumeric c || c = '_'

/-- The reader of what follows an opening dollar pair. Its state says whether the character before
is a dollar sign of the content. -/
def dollarReader : Reader Bool where
  step afterDollar c :=
    if c = '$' then if afterDollar then .finish else .take true [] else .take false []
  atEnd _ := some .openDollarString

/-- Where a reader of a tagged quotation is. -/
inductive TagState where
  /-- Within the text. -/
  | inside
  /-- After a dollar sign and the first part of the tag, with the other part to come. -/
  | within (left : List Char)
  deriving DecidableEq, Repr

/-- The reader of what follows an opening tag. A character that does not go on with the tag, be it
a dollar sign, belongs to the text; only after the whole tag a character that is no dollar sign is
looked at anew. -/
def tagReader (tag : List Char) : Reader TagState where
  step
    | .inside, c => .take (if c = '$' then .within tag else .inside) []
    | .within [], c => if c = '$' then .finish else .take .inside []
    | .within (next :: left), c => .take (if c = next then .within left else .inside) []
  atEnd _ := some .openTaggedString

/-- The lexeme of a body after its opening mark; an unclosed one is reported at the end of the
script. -/
def dollarLiteral (opening : List Char) : Except Fault Body → Except Fault Lexeme
  | .ok body => .ok (.verbatim .literal (opening ++ body.source))
  | .error fault => .error ⟨fault.cause, opening ++ fault.before⟩

/-- The lexeme that a dollar sign opens before the characters. -/
def dollarLexeme (rest : List Char) : Except Fault Lexeme :=
  match rest with
  | '$' :: rest => dollarLiteral ['$', '$'] (dollarReader.read false rest)
  | rest =>
    let tag := rest.takeWhile isTagChar
    match rest.drop tag.length with
    | '$' :: rest => dollarLiteral ('$' :: tag ++ ['$']) ((tagReader tag).read .inside rest)
    | _ => .ok (.verbatim .operator ('$' :: tag))

end SqlScript
