/-!
# The effect of a keyword on the block depth

A keyword opens a block, closes one or leaves the depth alone. A close where nothing is open
leaves the depth at zero.
-/

namespace SqlScript

/-- The effect of a keyword on the block depth. -/
inductive Delta where
  | opens
  | closes
  | neutral
  deriving DecidableEq, Repr, Inhabited

/-- The block depth after an effect. -/
def Delta.apply : Delta → Nat → Nat
  | opens, depth => depth + 1
  | closes, depth => depth - 1
  | neutral, depth => depth

end SqlScript
