import SqlScript.Text
import SqlScript.WordSet

/-!
# Names of schema objects

Statements such as `DROP TABLE IF EXISTS` name a kind of schema object before their `IF`. The set
of such names is kept in normal form: without blank ends and in upper case, blank names left out.
A query is put in upper case but keeps its blanks.
-/

namespace SqlScript

/-- The normal form of a name: without blank ends and in upper case. -/
def normalName (name : String) : String := upper (trim name)

/-- The names of the kinds of schema object that an existence guard may follow. -/
structure ModifiableObjects where
  names : WordSet
  deriving DecidableEq

namespace ModifiableObjects

/-- The set without names. -/
def empty : ModifiableObjects := ⟨WordSet.empty⟩

instance : Inhabited ModifiableObjects := ⟨empty⟩

/-- The normal forms of some names, blank ones left out. -/
def normalNames (names : List String) : List String :=
  (names.map normalName).filter (· ≠ "")

/-- The set with more names. -/
def extend (objects : ModifiableObjects) (names : List String) : ModifiableObjects :=
  ⟨objects.names.insertMany (normalNames names)⟩

/-- The set of some names. -/
def ofNames (names : List String) : ModifiableObjects := empty.extend names

/-- Whether a word, in any letter case, is one of the names. -/
def contains (objects : ModifiableObjects) (word : String) : Bool :=
  objects.names.contains (upper word)

/-- The number of names. -/
def size (objects : ModifiableObjects) : Nat := objects.names.size

/-- Whether there are no names. -/
def isEmpty (objects : ModifiableObjects) : Bool := objects.names.isEmpty

end ModifiableObjects

end SqlScript
