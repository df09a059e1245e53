import SqlScript.Split.Splitter

/-!
# Splitting whole scripts

* `split` splits a script and `splitMany` several, each by itself;
* `splitTokens` splits a script whose tokens are given;
* `report` and `reportTokens` also give the log.

Only a script that cannot be cut into tokens is an error. Structural problems are part of the
result.
-/

namespace SqlScript

/-- Splits a script whose tokens are given, and reports on it. -/
def reportTokens (rules : Rules) (script : String) (tokens : List Token) : Report :=
  (Splitter.ofString script).complete rules tokens

/-- Splits a script whose tokens are given. -/
def splitTokens (rules : Rules) (script : String) (tokens : List Token) : Split :=
  (reportTokens rules script tokens).split

/-- The script without the byte order mark that it may start with. -/
def dropByteOrderMark (script : String) : String :=
  match script.toList with
  | '\ufeff' :: rest => String.ofList rest
  | _ => script

/-- Splits a script and reports on it. Positions count from after a byte order mark. -/
def report (rules : Rules) (script : String) : Except ScriptError Report := do
  let script := dropByteOrderMark script
  let tokens ← tokenize rules script
  return reportTokens rules script tokens

/-- Splits a script. -/
def split (rules : Rules) (script : String) : Except ScriptError Split :=
  (report rules script).map Report.split

/-- Splits several scripts, each by itself. -/
def splitMany (rules : Rules) (scripts : List String) : List (Except ScriptError Split) :=
  scripts.map (split rules)

end SqlScript
