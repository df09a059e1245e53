/-!
# Digits

The value of a digit in a radix, and the character of a code point.
-/

namespace SqlScript

/-- The value of a digit, with letters of either case for ten and above. -/
def digitValue (c : Char) : Option Nat :=
  if '0' ≤ c ∧ c ≤ '9' then some (c.toNat - '0'.toNat)
  else if 'a' ≤ c ∧ c ≤ 'z' then some (c.toNat - 'a'.toNat + 10)
  else if 'A' ≤ c ∧ c ≤ 'Z' then some (c.toNat - 'A'.toNat + 10)
  else none

/-- The value of a digit of a radix. -/
def digitOf (radix : Nat) (c : Char) : Option Nat :=
  (digitValue c).filter (· < radix)

/-- Whether a character is a digit of a radix. -/
def isDigitOf (radix : Nat) (c : Char) : Bool := (digitOf radix c).isSome

/-- The character of a code point, if there is one. -/
def charOfCodePoint (n : Nat) : Option Char :=
  if n.isValidChar then some (Char.ofNat n) else none

example : digitOf 16 'F' = some 15 ∧ digitOf 8 '8' = none ∧ digitOf 10 'é' = none := by decide

example : charOfCodePoint 0x41 = some 'A' ∧ charOfCodePoint 0xD800 = none := by decide

end SqlScript
