import SqlScript.Error
import SqlScript.Statement

/-!
# What comes out of splitting a script

A `Split` holds the statements of a script and its structural problems; `Split.strict` accepts
only a script without problems. A `Report` holds the same for a part of the work, together with
the log. Reports of successive parts are appended, and `empty_append`, `append_empty` and
`append_assoc` say that only the order of the parts matters.
-/

namespace SqlScript

/-! ## Splits -/

/-- A script split into statements, with its structural problems. -/
structure Split where
  statements : Array Statement
  diagnostics : Array Diagnostic
  deriving DecidableEq, Repr, Inhabited

namespace Split

/-- Whether the script has no structural problems. -/
def isClean (split : Split) : Bool := split.diagnostics.isEmpty

/-- The statements of a script without structural problems. -/
def strict (split : Split) : Except ScriptError (Array Statement) :=
  if split.isClean then .ok split.statements else .error (.malformed split.diagnostics.toList)

end Split

/-! ## Reports -/

/-- What came out of a part of the work. -/
structure Report where
  statements : Array Statement
  diagnostics : Array Diagnostic
  events : Array Event
  deriving DecidableEq, Repr, Inhabited

namespace Report

/-- The report of no work. -/
def empty : Report := ⟨#[], #[], #[]⟩

/-- The report of one part of the work and then another. -/
def append (first second : Report) : Report :=
  ⟨first.statements ++ second.statements, first.diagnostics ++ second.diagnostics,
    first.events ++ second.events⟩

instance : Append Report := ⟨append⟩

/-- The report without the log. -/
def split (report : Report) : Split := ⟨report.statements, report.diagnostics⟩

/-- The report of a statement that was cut, or of none. -/
def ofStatement (statement : Option Statement) : Report :=
  ⟨statement.toArray, #[], (statement.map Statement.event).toArray⟩

theorem append_def (first second : Report) :
    first ++ second =
      ⟨first.statements ++ second.statements, first.diagnostics ++ second.diagnostics,
        first.events ++ second.events⟩ := rfl

@[simp] theorem empty_append (report : Report) : empty ++ report = report := by
  simp [append_def, empty]

@[simp] theorem append_empty (report : Report) : report ++ empty = report := by
  simp [append_def, empty]

/-- Only the order of the parts matters, and not how they are grouped. -/
theorem append_assoc (first second third : Report) :
    first ++ second ++ third = first ++ (second ++ third) := by
  simp [append_def, Array.append_assoc]

end Report

end SqlScript
