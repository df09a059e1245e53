import SqlScript.Text
import SqlScript.Error
import SqlScript.Dialect.Hsqldb
import SqlScript.Dialect.Generic

/-!
# Dialects

A dialect fixes the reserved words of a script and the kinds of schema object that an existence
guard may follow. HyperSQL scripts have procedural blocks; in the generic dialect every terminator
ends a statement.
-/

namespace SqlScript

/-- The dialects of SQL that a script can be written in. -/
inductive Dialect where
  /-- HyperSQL, with procedural blocks. -/
  | hsqldb
  /-- No dialect in particular, without blocks. -/
  | generic
  deriving DecidableEq, Repr, Inhabited

namespace Dialect

/-- Every dialect. -/
def all : List Dialect := [hsqldb, generic]

/-- The name of a dialect, in lower case. -/
def name : Dialect → String
  | hsqldb => "hsqldb"
  | generic => "generic"

/-- The dialect of a name, in any letter case and between blanks. -/
def parse (name : String) : Except ScriptError Dialect :=
  let word := trim name
  match all.find? fun dialect => upper dialect.name = upper word with
  | some dialect => .ok dialect
  | none => .error (.unknownDialect word)

/-- The reserved words of a dialect, in upper case. -/
def keywords : Dialect → WordSet
  | hsqldb => hsqldbKeywords
  | generic => genericKeywords

/-- The kinds of schema object that an existence guard may follow without further notice. -/
def objects : Dialect → List String
  | hsqldb => ["CONSTRAINT", "TABLE", "COLUMN"]
  | generic => []

end Dialect

end SqlScript
