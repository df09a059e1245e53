import SqlScript.Position

/-!
# Structural problems of a script

A `Diagnostic` reports blocks that do not balance. It never stops the splitting of a script: the
block depth is mended and the work goes on.
-/

namespace SqlScript

/-- A structural problem of a script. -/
inductive Diagnostic where
  /-- A keyword closes a block where none is open. -/
  | unmatchedEnd (position : Position)
  /-- The script ends with blocks still open, in the statement that starts at the position. -/
  | unclosedBlock (position : Position) (depth : Nat)
  deriving DecidableEq, Repr

namespace Diagnostic

/-- The place that a problem is reported at. -/
def position : Diagnostic → Position
  | unmatchedEnd position => position
  | unclosedBlock position _ => position

/-- The wording of a problem. -/
def message : Diagnostic → String
  | unmatchedEnd position => s!"unmatched END at {position}"
  | unclosedBlock position depth =>
    s!"script ends inside {depth} open block(s), statement started at {position}"

end Diagnostic

end SqlScript
