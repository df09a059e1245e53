/-!
# Positions in a script

A position counts lines and, within a line, characters; both start at 1. Reading a character moves
the position: a newline to the start of the next line, every other character, a carriage return
included, one column on.
-/

namespace SqlScript

/-- A line and a column of a script, counted from 1 in characters. -/
structure Position where
  line : Nat
  column : Nat
  deriving DecidableEq, Repr, Inhabited

namespace Position

/-- The wording of a position in messages. -/
def describe (position : Position) : String :=
  s!"line {position.line}, column {position.column}"

instance : ToString Position := ⟨describe⟩

/-- The position of the first character of a script. -/
def start : Position := ⟨1, 1⟩

/-- The position after a character. -/
def advance (position : Position) (c : Char) : Position :=
  if c = '\n' then ⟨position.line + 1, 1⟩ else ⟨position.line, position.column + 1⟩

/-- The position after some characters. -/
def advanceBy (position : Position) (chars : List Char) : Position :=
  chars.foldl advance position

@[simp] theorem advanceBy_nil (position : Position) : position.advanceBy [] = position := rfl

@[simp] theorem advanceBy_cons (position : Position) (c : Char) (chars : List Char) :
    position.advanceBy (c :: chars) = (position.advance c).advanceBy chars := rfl

@[simp] theorem advanceBy_append (position : Position) (front back : List Char) :
    position.advanceBy (front ++ back) = (position.advanceBy front).advanceBy back := by
  simp [advanceBy]

end Position

end SqlScript
