import SqlScript.Block.Context
import SqlScript.Text

/-!
# Statements

A statement is cut out of a script as it is written, without its terminator and without blank
ends. It keeps the position of its first token that is more than a blank or a comment, and what
its keywords say about it.
-/

namespace SqlScript

/-- A statement cut out of a script. -/
structure Statement where
  /-- The statement as it is written, without its terminator and without blank ends. -/
  text : String
  /-- The position of its first token. -/
  start : Position
  /-- The number of keywords. -/
  keywordCount : Nat
  /-- The largest number of blocks open at once. -/
  maxDepth : Nat
  /-- Whether a terminator ended it. -/
  terminated : Bool
  deriving DecidableEq, Repr, Inhabited

namespace Statement

/-- Whether the statement opens a block. -/
def hasBlocks (statement : Statement) : Bool := 0 < statement.maxDepth

/-- The statement that a piece of a script makes, unless the piece is blank. -/
def ofPiece (piece : List Char) (start : Position) (context : Context) (terminated : Bool) :
    Option Statement :=
  let text := trimChars piece
  if text.isEmpty then none
  else some ⟨String.ofList text, start, context.keywords.size, context.maxDepth, terminated⟩

/-- What is logged when a statement is cut. -/
def event (statement : Statement) : Event :=
  .cut statement.start.line statement.keywordCount statement.maxDepth

end Statement

end SqlScript
