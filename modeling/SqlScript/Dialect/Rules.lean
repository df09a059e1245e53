import SqlScript.Dialect.Basic
import SqlScript.Dialect.Objects
import SqlScript.Block.Role

/-!
# The rules of a dialect

`Rules` is what the splitting of a script depends on: a dialect, and the set of modifiable
objects, which can be extended. Words are looked up in any letter case.
-/

namespace SqlScript

/-- A dialect together with its modifiable objects. -/
structure Rules where
  dialect : Dialect
  objects : ModifiableObjects
  deriving DecidableEq

/-- The rules of a dialect with the objects it has by itself. -/
def Dialect.rules (dialect : Dialect) : Rules := ⟨dialect, .ofNames dialect.objects⟩

namespace Rules

/-- The rules with more modifiable objects. -/
def withObjects (rules : Rules) (names : List String) : Rules :=
  { rules with objects := rules.objects.extend names }

/-- The reserved words, in upper case. -/
def keywords (rules : Rules) : WordSet := rules.dialect.keywords

/-- Whether a word, in any letter case, is reserved. -/
def isKeyword (rules : Rules) (word : String) : Bool := rules.keywords.contains (upper word)

/-- Whether a word, in any letter case, names a modifiable object. -/
def isModifiableObject (rules : Rules) (word : String) : Bool := rules.objects.contains word

/-- The effect of a keyword after the previous keyword of its statement, which is the empty word
at the start. -/
def delta (rules : Rules) (keyword previous : String) : Delta :=
  match rules.dialect with
  | .hsqldb =>
    (Role.ofWord (upper keyword)).delta (Role.ofWord (upper previous))
      (rules.isModifiableObject previous)
  | .generic => .neutral

end Rules

end SqlScript
