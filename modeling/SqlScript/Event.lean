import SqlScript.Position
import SqlScript.Block.Delta

/-!
# The log of a split

What happens while a script is split, in order: the effect of each keyword, closes without an open
block, the statements that are cut, and a script that ends within a block.
-/

namespace SqlScript

/-- How much an event matters. -/
inductive Level where
  | trace
  | debug
  | warn
  deriving DecidableEq, Repr

/-- Something that happens while a script is split. -/
inductive Event where
  /-- A keyword took effect; the depth is the one after it. -/
  | adjusted (keyword : String) (delta : Delta) (depth : Nat)
  /-- A keyword closes a block where none is open. -/
  | underflow (position : Position) (keyword : String)
  /-- A statement was cut that starts on the line. -/
  | cut (line keywords maxDepth : Nat)
  /-- The script ended within a block of the statement that starts at the position. -/
  | openAtEnd (position : Position) (depth : Nat)
  deriving DecidableEq, Repr

namespace Event

/-- How much an event matters. -/
def level : Event → Level
  | adjusted .. => .trace
  | underflow .. => .warn
  | cut .. => .debug
  | openAtEnd .. => .warn

/-- The wording of an event. -/
def message : Event → String
  | adjusted .. => "adjusted block depth"
  | underflow .. => "block depth underflow, clamping at 0"
  | cut .. => "cut statement"
  | openAtEnd .. => "script ended inside an open block"

end Event

end SqlScript
