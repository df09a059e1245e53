import SqlScript.Event
import SqlScript.Token

/-!
# Block depth within a statement

A `Context` follows the keywords of one statement: how many blocks are open, how many were open at
most, which keywords went by and which of them closed a block that was not open. A terminator ends
the statement only while no block is open.

* `Context.cuts` says whether a token ends the statement;
* `Context.feed` is the context after a token, `Context.delta` the effect of the token and
  `Context.events` what is logged of it;
* `Context.take` hands out the problems found so far.
-/

namespace SqlScript

/-- A keyword of a statement, in upper case, and the block depth after it. -/
structure SeenKeyword where
  text : String
  depth : Nat
  deriving DecidableEq, Repr, Inhabited

/-- What is known of a statement after some of its tokens. -/
structure Context where
  /-- The number of blocks open. -/
  depth : Nat
  /-- The largest number of blocks open at once. -/
  maxDepth : Nat
  /-- The keywords so far. -/
  keywords : Array SeenKeyword
  /-- The problems not yet handed out. -/
  pending : Array Diagnostic
  deriving DecidableEq, Repr

namespace Context

/-- The context at the start of a statement. -/
def empty : Context := ⟨0, 0, #[], #[]⟩

instance : Inhabited Context := ⟨empty⟩

/-- The last keyword, or the empty word at the start of a statement. -/
def previous (context : Context) : String := (context.keywords.back?.map SeenKeyword.text).getD ""

/-- Whether a terminator would end the statement here. -/
def atBoundary (context : Context) : Bool := context.depth = 0

/-- Whether a token ends the statement: it is a terminator, and no block is open. -/
def cuts (context : Context) (token : Token) : Prop :=
  token.isTerminator = true ∧ context.atBoundary = true

instance (context : Context) (token : Token) : Decidable (context.cuts token) :=
  inferInstanceAs (Decidable (_ ∧ _))

/-- The block depth after each keyword. -/
def trace (context : Context) : Array Nat := context.keywords.map SeenKeyword.depth

/-- The problems not yet handed out, and the context without them. -/
def take (context : Context) : Array Diagnostic × Context :=
  (context.pending, { context with pending := #[] })

/-! ## One token -/

/-- The effect of a token on the block depth, none unless it is a keyword. -/
def delta (rules : Rules) (context : Context) (token : Token) : Delta :=
  if token.isKeyword then rules.delta token.text context.previous else .neutral

/-- Whether an effect closes a block where none is open. -/
def underflows (context : Context) (delta : Delta) : Bool :=
  delta = .closes ∧ context.depth = 0

/-- The context after a keyword at a position, given its text and its effect. -/
def record (context : Context) (keyword : String) (delta : Delta) (position : Position) : Context :=
  let underflow := context.underflows delta
  let depth := delta.apply context.depth
  { depth
    maxDepth := max context.maxDepth depth
    keywords := context.keywords.push ⟨keyword, depth⟩
    pending :=
      if underflow then context.pending.push (.unmatchedEnd position) else context.pending }

/-- The context after a token; only keywords change it. -/
def feed (rules : Rules) (context : Context) (token : Token) : Context :=
  if token.isKeyword then
    context.record (upper token.text) (context.delta rules token) token.start
  else context

/-- What is logged of a token. -/
def events (rules : Rules) (context : Context) (token : Token) : Array Event :=
  if token.isKeyword then
    let delta := context.delta rules token
    let adjusted := Event.adjusted (upper token.text) delta (delta.apply context.depth)
    if context.underflows delta then #[.underflow token.start token.text, adjusted]
    else #[adjusted]
  else #[]

end Context

end SqlScript
