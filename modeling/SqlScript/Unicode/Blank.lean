import SqlScript.Unicode.Ranges

/-!
# Blank characters

The Unicode property `White_Space` as a table of code point ranges. Blanks separate the words of a
script and are trimmed from the ends of names and statements.
-/

namespace SqlScript

/-- The code points with the property `White_Space`, both ends included. -/
def blankRanges : List (Nat × Nat) := [
  (0x9, 0xD), (0x20, 0x20), (0x85, 0x85), (0xA0, 0xA0), (0x1680, 0x1680), (0x2000, 0x200A),
  (0x2028, 0x2029), (0x202F, 0x202F), (0x205F, 0x205F), (0x3000, 0x3000)]

/-- Whether a character has the Unicode property `White_Space`. -/
def isBlank (c : Char) : Bool := inRanges blankRanges c.toNat

example : isBlank ' ' = true ∧ isBlank '\u00a0' = true ∧ isBlank '\u200b' = false := by decide

end SqlScript
