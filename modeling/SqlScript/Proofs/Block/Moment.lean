import SqlScript.Proofs.Block.Clamp
import SqlScript.Proofs.Block.Couple

/-!
# The moments of a script

A `Moment` is a token together with the context that it meets: the context of its own statement,
which starts anew after every cut. Whatever a splitter does with a token it does at its moment, so
statements about all tokens of a script are statements about its `moments`.

The moments at which a keyword closes a block while none is open are the `strays`. Along a statement
they are exactly what its context finds, and by the closed form of the block depth there is none if
and only if the sum of the effects never falls below zero.

## Results

* `moments_append`, `moments_cut`  — the moments of a script in parts.
* `Context.pending_feedAll`        — the problems of a context are the strays among its tokens.
* `Context.pending_eq_empty_iff`   — a context has no problem if and only if the effects of its
  tokens keep their sum above zero, and `Context.depth_of_neverBelow` its depth is the sum then.
-/

namespace SqlScript

/-- A token and the context of its statement before it. -/
structure Moment where
  context : Context
  token : Token
  deriving DecidableEq, Repr

namespace Moment

variable (rules : Rules) (moment : Moment)

/-- The effect of the token. -/
def delta : Delta := moment.context.delta rules moment.token

/-- The block depth after the token. -/
def depthAfter : Nat := (moment.delta rules).apply moment.context.depth

/-- Whether the token closes a block while none is open. -/
def isStray : Bool := moment.context.underflows (moment.delta rules)

/-- Only keywords have an effect. -/
theorem isKeyword_of_isStray {rules : Rules} {moment : Moment} (h : moment.isStray rules = true) :
    moment.token.isKeyword = true := by
  have hCloses : moment.delta rules = .closes := (of_decide_eq_true h).1
  cases hKeyword : moment.token.isKeyword with
  | true => rfl
  | false =>
    have hNeutral := (moment.context.feed_of_not_keyword rules moment.token hKeyword).2
    rw [delta, hNeutral] at hCloses
    cases hCloses

end Moment

section Moments

variable (rules : Rules)

/-- The moments of some tokens, given the context before them. -/
def moments (context : Context) : List Token → List Moment
  | [] => []
  | token :: rest => ⟨context, token⟩ :: moments (context.next rules token) rest

/-- The keywords that close a block while none is open. -/
def strays (context : Context) (tokens : List Token) : List Token :=
  ((moments rules context tokens).filter (Moment.isStray rules)).map Moment.token

variable (context : Context)

theorem map_token_moments (tokens : List Token) :
    (moments rules context tokens).map Moment.token = tokens := by
  induction tokens generalizing context with
  | nil => rfl
  | cons token rest ih => rw [moments, List.map_cons, ih]

theorem moments_append (front back : List Token) :
    moments rules context (front ++ back) =
      moments rules context front ++ moments rules (contextAfter rules context front) back := by
  induction front generalizing context with
  | nil => rfl
  | cons token rest ih =>
    rw [List.cons_append, moments, moments, ih, List.cons_append]
    rfl

/-- After a cut the moments are those of a script of its own. -/
theorem moments_cut {body : List Token} {mark : Token} (h : Cut rules body mark)
    (rest : List Token) :
    moments rules Context.empty (body ++ mark :: rest) =
      moments rules Context.empty body ++
        ⟨Context.empty.feedAll rules body, mark⟩ :: moments rules Context.empty rest := by
  rw [moments_append, contextAfter_of_uncut h.uncut, moments, Context.next, if_pos h.cuts]

theorem mem_of_mem_strays {context : Context} {tokens : List Token} {token : Token}
    (h : token ∈ strays rules context tokens) : token ∈ tokens ∧ token.isKeyword = true := by
  obtain ⟨moment, hMoment, rfl⟩ := List.mem_map.mp h
  obtain ⟨hMem, hStray⟩ := List.mem_filter.mp hMoment
  refine ⟨?_, Moment.isKeyword_of_isStray hStray⟩
  rw [← map_token_moments rules context tokens]
  exact List.mem_map_of_mem hMem

theorem strays_cons (token : Token) (rest : List Token) :
    strays rules context (token :: rest) =
      (if context.delta rules token = .closes ∧ context.depth = 0 then [token] else []) ++
        strays rules (context.next rules token) rest := by
  unfold strays
  rw [moments, List.filter_cons]
  by_cases hStray : context.delta rules token = .closes ∧ context.depth = 0
  · have hTrue : Moment.isStray rules ⟨context, token⟩ = true := decide_eq_true hStray
    rw [if_pos hTrue, if_pos hStray]
    rfl
  · have hFalse : Moment.isStray rules ⟨context, token⟩ = false := decide_eq_false hStray
    rw [if_neg (by simp [hFalse]), if_neg hStray]
    rfl

/-- No terminator is a stray, so those of the statements are all. -/
theorem strays_cut {body : List Token} {mark : Token} (h : Cut rules body mark)
    (rest : List Token) :
    strays rules Context.empty (body ++ mark :: rest) =
      strays rules Context.empty body ++ strays rules Context.empty rest := by
  -- A terminator is no keyword, so it has no effect.
  have hKeyword := Token.isKeyword_of_isTerminator h.cuts.1
  have hNeutral := (Context.empty.feedAll rules body).feed_of_not_keyword rules mark hKeyword
  have hMark : Moment.isStray rules ⟨Context.empty.feedAll rules body, mark⟩ = false := by
    simp [Moment.isStray, Moment.delta, hNeutral.2, Context.underflows]
  unfold strays
  rw [moments_cut rules h, List.filter_append, List.filter_cons, if_neg (by simp [hMark]),
    List.map_append]

/-- The problems that a context finds in one statement are its strays. -/
theorem Context.pending_feedAll {context : Context} {tokens : List Token}
    (h : context.Uncut rules tokens) :
    (context.feedAll rules tokens).pending.toList = context.pending.toList ++
      (strays rules context tokens).map fun token => .unmatchedEnd token.start := by
  -- Each token adds its own problem if it is a stray, and the rest goes on behind it.
  induction tokens generalizing context with
  | nil => simp [strays, moments]
  | cons token rest ih =>
    obtain ⟨hToken, hRest⟩ := h
    have hNext : context.next rules token = context.feed rules token := if_neg hToken
    rw [feedAll_cons, ih hRest, pending_feed, strays_cons, hNext, List.map_append,
      List.append_assoc]
    split <;> rfl

end Moments

/-! ## Sums of effects -/

theorem lowest_nonpos (deltas : List Delta) (n : Nat) : lowest deltas n ≤ 0 := by
  induction n with
  | zero => simp [lowest, balance]
  | succ n ih =>
    have hStep := lowest_succ deltas n
    omega

/-- The lowest balance is 0 if and only if no balance is below. -/
theorem lowest_eq_zero_iff (deltas : List Delta) (n : Nat) :
    lowest deltas n = 0 ↔ ∀ i ≤ n, 0 ≤ balance deltas i := by
  induction n with
  | zero =>
    have hStart : balance deltas 0 = 0 := by simp [balance]
    have hLowest : lowest deltas 0 = 0 := by simp [lowest, hStart]
    refine iff_of_true hLowest fun i hi => ?_
    obtain rfl := Nat.le_zero.mp hi
    exact Int.le_of_eq hStart.symm
  -- The lowest balance goes down at the last place or stays, and it was never above 0.
  | succ n ih =>
    have hStep := lowest_succ deltas n
    have hBefore := lowest_nonpos deltas n
    constructor
    · intro hZero i hi
      rcases Nat.le_succ_iff.mp hi with hLess | rfl
      · exact ih.mp (by omega) i hLess
      · show 0 ≤ balance deltas (n + 1)
        omega
    · intro hAll
      have hZero := ih.mpr fun i hi => hAll i (Nat.le_succ_of_le hi)
      have hLast := hAll (n + 1) (Nat.le_refl _)
      omega

/-- The sum of the effects of a statement never falls below zero. -/
def NeverBelow (rules : Rules) (tokens : List Token) : Prop :=
  ∀ n ≤ tokens.length, 0 ≤ balance (effectsAfter rules "" tokens) n

/-- The sum of the effects of a statement. -/
def totalEffect (rules : Rules) (tokens : List Token) : Int :=
  balance (effectsAfter rules "" tokens) tokens.length

/-- A session that only feeds tokens has fed them to its context and taken no problem. -/
theorem Session.foldl_feed (rules : Rules) (session : Session) (tokens : List Token) :
    let after := (tokens.map Action.feed).foldl (act rules) session
    after.context = session.context.feedAll rules tokens ∧ after.batches = session.batches := by
  induction tokens generalizing session with
  | nil => exact ⟨rfl, rfl⟩
  | cons token rest ih => exact ih (session.act rules (.feed token))

namespace Context

variable (rules : Rules) (tokens : List Token)

/-- The depth and the number of problems of a context in terms of the effects of its tokens. -/
theorem height_feedAll :
    let deltas := effectsAfter rules "" tokens
    let context := empty.feedAll rules tokens
    (context.depth : Int) = height deltas tokens.length ∧
      (context.pending.size : Int) = -lowest deltas tokens.length := by
  intro deltas context
  -- The tokens are fed as the actions of a session, whose height is known.
  have hTokens : tokensOf (tokens.map .feed) = tokens := by
    show (tokens.map Action.feed).filterMap Action.token = tokens
    rw [List.filterMap_map]
    exact List.filterMap_some
  obtain ⟨hContext, hBatches⟩ := Session.foldl_feed rules .start tokens
  have hDeltas : (Session.run rules (tokens.map .feed)).deltas = deltas := by
    unfold Session.run
    rw [Session.deltas_foldl, hTokens]
    rfl
  have hClamped : (Session.run rules (tokens.map .feed)).Clamped deltas tokens := by
    have hPrefix : (Session.run rules (tokens.map .feed)).deltas <+: deltas := by
      exact ⟨[], by rw [List.append_nil, hDeltas]⟩
    have hRun := Session.clamped_run hPrefix
    rwa [hTokens] at hRun
  -- No problem was taken in between, so all of them are still with the context.
  have hDepth := hClamped.depth
  have hCount := hClamped.count
  unfold Session.run at hDepth hCount
  unfold Session.problems at hCount
  rw [hContext] at hDepth hCount
  rw [hBatches] at hCount
  exact ⟨hDepth, hCount⟩

/-- No keyword of a statement closes what is not open if and only if the sum of its effects never
falls below zero. -/
theorem pending_eq_empty_iff :
    (empty.feedAll rules tokens).pending = #[] ↔ NeverBelow rules tokens := by
  -- There are as many problems as the sum has come below zero.
  have hCount := (height_feedAll rules tokens).2
  unfold NeverBelow
  rw [← lowest_eq_zero_iff, ← Array.size_eq_zero_iff]
  omega

/-- Without such keywords the depth is the sum. -/
theorem depth_of_neverBelow (h : NeverBelow rules tokens) :
    ((empty.feedAll rules tokens).depth : Int) = totalEffect rules tokens := by
  have hDepth := (height_feedAll rules tokens).1
  have hLowest := (lowest_eq_zero_iff _ _).mpr h
  unfold height at hDepth
  rw [hLowest, Int.sub_zero] at hDepth
  exact hDepth

end Context

end SqlScript
