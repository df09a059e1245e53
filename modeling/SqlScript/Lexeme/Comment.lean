import SqlScript.Lexeme.Reader

/-!
# Comments

A line comment reaches from two hyphens to the end of the line, the newline included. A block
comment stands between `/*` and `*/` and may hold others.
-/

namespace SqlScript

/-! ## Line comments -/

/-- The line comment whose two hyphens are followed by the characters. -/
def lineComment (rest : List Char) : Lexeme :=
  let line := rest.takeWhile (· ≠ '\n')
  .verbatim .comment ('-' :: '-' :: (line ++ (rest.drop line.length).take 1))

/-! ## Block comments -/

/-- Where a reader of a block comment is. -/
structure NestingState where
  /-- The character before, a space at the start. -/
  last : Char
  /-- The number of comments open. -/
  nesting : Nat
  deriving DecidableEq, Repr

/-- The reader of what follows the opening of a block comment. A star may take part in the end of
one mark and the start of the next. -/
def blockCommentReader : Reader NestingState where
  step state c :=
    if state.last = '/' ∧ c = '*' then .take ⟨c, state.nesting + 1⟩ []
    else if state.last = '*' ∧ c = '/' then
      if state.nesting = 1 then .finish else .take ⟨c, state.nesting - 1⟩ []
    else .take ⟨c, state.nesting⟩ []
  atEnd _ := some .openComment

/-- The block comment whose opening mark is followed by the characters; an unclosed one is reported
at the end of the script. -/
def blockComment (rest : List Char) : Except Fault Lexeme :=
  match blockCommentReader.read ⟨' ', 1⟩ rest with
  | .ok body => .ok (.verbatim .comment ('/' :: '*' :: body.source))
  | .error fault => .error ⟨fault.cause, '/' :: '*' :: fault.before⟩

end SqlScript
