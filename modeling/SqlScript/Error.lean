import SqlScript.Diagnostic

/-!
# Errors

The three ways in which work on a script can fail, and their wording.
-/

namespace SqlScript

/-- Why a script cannot be split. -/
inductive ScriptError where
  /-- The text cannot be cut into tokens; the detail says what is wrong at the position. -/
  | untokenizable (position : Position) (detail : String)
  /-- No dialect has the name. -/
  | unknownDialect (name : String)
  /-- A script that has to be free of structural problems has some. -/
  | malformed (diagnostics : List Diagnostic)
  deriving DecidableEq, Repr

/-- The wording of an error. -/
def ScriptError.message : ScriptError → String
  | untokenizable position detail => s!"Failed to tokenize SQL script at {position}: {detail}"
  | unknownDialect name => s!"Unknown SQL dialect: {name}"
  | malformed diagnostics =>
    "Malformed SQL script: " ++ "; ".intercalate (diagnostics.map Diagnostic.message)

end SqlScript
