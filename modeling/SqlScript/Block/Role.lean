import SqlScript.Block.Delta

/-!
# The part of a keyword in the block structure

Seven words have to do with procedural blocks; every other word is plain. The effect of a keyword
follows from its own role and from the keyword before it:

* `BEGIN` opens a block and `END` closes one, whatever precedes them;
* `IF`, `FOR` and `CASE` open a block, except after `END`, where they only name the block that was
  closed;
* `IF` after the name of a kind of schema object is an existence guard and opens nothing;
* `EACH` and `SQLEXCEPTION` directly after `FOR` turn the `FOR` into a clause, so they close the
  block again.
-/

namespace SqlScript

/-- The part of a word in the block structure of a script. -/
inductive Role where
  /-- The word is `BEGIN`. -/
  | opener
  /-- The word is `IF`. -/
  | conditional
  /-- The word is `FOR`. -/
  | loop
  /-- The word is `CASE`. -/
  | choice
  /-- The word is `EACH` or `SQLEXCEPTION`. -/
  | clause
  /-- The word is `END`. -/
  | closer
  /-- The word is any other. -/
  | plain
  deriving DecidableEq, Repr, Inhabited

namespace Role

/-- The role of a word in upper case. -/
def ofWord (word : String) : Role :=
  if word = "BEGIN" then opener
  else if word = "IF" then conditional
  else if word = "FOR" then loop
  else if word = "CASE" then choice
  else if word = "EACH" ∨ word = "SQLEXCEPTION" then clause
  else if word = "END" then closer
  else plain

/-- The words that have a role, none for the words that are plain. -/
def words : Role → List String
  | opener => ["BEGIN"]
  | conditional => ["IF"]
  | loop => ["FOR"]
  | choice => ["CASE"]
  | clause => ["EACH", "SQLEXCEPTION"]
  | closer => ["END"]
  | plain => []

/-- A word has a role if it is one of the words of the role. -/
theorem ofWord_eq_iff {word : String} {role : Role} (h : role ≠ plain) :
    ofWord word = role ↔ word ∈ role.words := by
  constructor
  · rintro rfl
    unfold ofWord at h ⊢
    repeat' split
    all_goals simp_all [words]
  · intro hMem
    cases role <;> simp only [words, List.mem_cons, List.not_mem_nil, or_false] at hMem
    case clause => rcases hMem with rfl | rfl <;> rfl
    all_goals subst hMem; rfl

/-- Only `END` closes a block wherever it stands. -/
theorem ofWord_eq_closer_iff {word : String} : ofWord word = closer ↔ word = "END" :=
  (ofWord_eq_iff (show closer ≠ plain by decide)).trans List.mem_singleton

/-- The effect of a keyword, given the role of the keyword before it and whether that one names a
kind of schema object. -/
def delta (role previous : Role) (afterObject : Bool) : Delta :=
  match role with
  | opener => .opens
  | closer => .closes
  | conditional => if previous = closer ∨ afterObject then .neutral else .opens
  | loop | choice => if previous = closer then .neutral else .opens
  | clause => if previous = loop then .closes else .neutral
  | plain => .neutral

end Role

end SqlScript
