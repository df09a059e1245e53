import SqlScript.Position

/-!
# From positions back to the text

A `Locator` finds the place of a position in a script. It knows where each line starts, and it
keeps a cursor, the position that was found last: a position further right on the same line is
reached from there, so that walking along a long line costs its length once.

* `Spot` is a place of the script, with what precedes it counted in characters and in bytes;
* `Locator.find` looks a position up, `Locator.offset` gives its byte offset;
* `Locator.slice` and `Locator.sliceFrom` cut text out.

A position past the end of its line counts on into the following lines; one past the end of the
script is the end of the script. Column 0 is found where column 1 is. While the cursor stands in
column 0, that column counts as one of its own, and the positions of the line are found one
character further right.
-/

namespace SqlScript

/-- A place between two characters of a script. -/
structure Spot where
  /-- The number of characters before it. -/
  index : Nat
  /-- The number of UTF-8 bytes before it. -/
  offset : Nat
  /-- The characters after it. -/
  rest : List Char
  deriving DecidableEq, Repr, Inhabited

namespace Spot

/-- The place some characters further on, or the end of the script. -/
def skip : Spot → Nat → Spot
  | spot, 0 => spot
  | ⟨index, offset, []⟩, _ + 1 => ⟨index, offset, []⟩
  | ⟨index, offset, c :: rest⟩, n + 1 => skip ⟨index + 1, offset + c.utf8Size, rest⟩ n

/-- The starts of the lines from a place on, after those already known, and the final place. -/
def collectLines (starts : Array Spot) (index offset : Nat) : List Char → Array Spot × Spot
  | [] => (starts, ⟨index, offset, []⟩)
  | c :: rest =>
    let next : Spot := ⟨index + 1, offset + c.utf8Size, rest⟩
    collectLines (if c = '\n' then starts.push next else starts) next.index next.offset rest

end Spot

/-- The lines of a script and a cursor on the position that was found last. -/
structure Locator where
  /-- The place where each line starts. -/
  lines : Array Spot
  /-- The end of the script. -/
  final : Spot
  /-- The position that was found last. -/
  position : Position
  /-- The place of that position. -/
  spot : Spot
  deriving Repr, Inhabited

namespace Locator

/-- The locator of a script, its cursor on the first character. -/
def ofChars (script : List Char) : Locator :=
  let first : Spot := ⟨0, 0, script⟩
  let (lines, final) := Spot.collectLines #[first] 0 0 script
  ⟨lines, final, Position.start, first⟩

/-- The locator of a script, its cursor on the first character. -/
def ofString (script : String) : Locator := ofChars script.toList

/-- The place and the column from which a position is counted: the cursor if it is on the same line
and not further right, else the start of the line. -/
def base (locator : Locator) (lineStart : Spot) (position : Position) : Spot × Nat :=
  if locator.position.line = position.line ∧ locator.position.column ≤ position.column then
    (locator.spot, locator.position.column)
  else (lineStart, 1)

/-- The place of a position, and the locator with its cursor there. The cursor stays where it was
if the script has no character at the position; the place is then the end of the script. -/
def find (locator : Locator) (position : Position) : Spot × Locator :=
  -- Line 0 is the first line, as line 1 is.
  match locator.lines[position.line - 1]? with
  | none => (locator.final, locator)
  | some lineStart =>
    let (origin, column) := locator.base lineStart position
    let spot := origin.skip (max position.column 1 - column)
    if spot.rest.isEmpty then (locator.final, locator)
    else (spot, { locator with position, spot })

/-- The number of bytes before a position. -/
def offset (locator : Locator) (position : Position) : Nat × Locator :=
  let (spot, locator) := locator.find position
  (spot.offset, locator)

/-- The characters from one position up to another, none if the other does not come after it. -/
def slice (locator : Locator) (first last : Position) : List Char × Locator :=
  let (opening, locator) := locator.find first
  let (closing, locator) := locator.find last
  (opening.rest.take (closing.index - opening.index), locator)

/-- The characters from a position to the end of the script. -/
def sliceFrom (locator : Locator) (first : Position) : List Char × Locator :=
  let (opening, locator) := locator.find first
  (opening.rest, locator)

end Locator

end SqlScript
