import Mathlib.Algebra.Ring.Int.Defs
import Mathlib.Data.List.Induction
import SqlScript.Proofs.Block.Balance
import SqlScript.Proofs.Block.Feed

/-!
# The block depth in closed form

The block depth goes up and down with the effects of the keywords, but it stops at zero: a close
where nothing is open is a problem and leaves the depth alone. This module says what the depth is
after any number of tokens, balanced or not, without a look at the depths before.

If the depth did not stop, it would be the `balance` of the effects, the closes counted against the
opens. The `lowest` balance so far is never above zero, and the real depth is the `height` of the
balance above it. A problem is found at exactly those tokens that bring the balance to a new lowest
value.

A `Session` is a context in use: tokens are fed to it, and in between the problems found so far are
taken from it. The closed form is kept by each action (`Clamped.feed`, `Clamped.take`) and so holds
after every run.

## Results

* `session_clamped` — the effects of the tokens of a run, the closed form after every part of the
  run, and that it makes no difference when problems are taken.
-/

namespace SqlScript

/-! ## Sessions -/

/-- What is done with a context: a token is fed to it, or its problems are taken. -/
inductive Action where
  | feed (token : Token)
  | take
  deriving DecidableEq, Repr

/-- The token that an action feeds. -/
def Action.token : Action → Option Token
  | feed token => some token
  | take => none

/-- The tokens that some actions feed. -/
def tokensOf (actions : List Action) : List Token := actions.filterMap Action.token

@[simp] theorem tokensOf_concat_feed (actions : List Action) (token : Token) :
    tokensOf (actions ++ [.feed token]) = tokensOf actions ++ [token] := by
  simp [tokensOf, Action.token]

@[simp] theorem tokensOf_concat_take (actions : List Action) :
    tokensOf (actions ++ [.take]) = tokensOf actions := by
  simp [tokensOf, Action.token]

/-- A context in use. -/
structure Session where
  context : Context
  /-- The effects of the tokens fed so far. -/
  deltas : List Delta
  /-- The problems taken so far, batch by batch. -/
  batches : List (Array Diagnostic)
  deriving DecidableEq, Repr

namespace Session

/-- The session before the first action. -/
def start : Session := ⟨Context.empty, [], []⟩

/-- The session after one more action. -/
def act (rules : Rules) (session : Session) : Action → Session
  | .feed token =>
    { session with
      context := session.context.feed rules token
      deltas := session.deltas ++ [session.context.delta rules token] }
  | .take =>
    let (batch, context) := session.context.take
    { session with context, batches := session.batches ++ [batch] }

/-- The session after some actions. -/
def run (rules : Rules) (actions : List Action) : Session := actions.foldl (act rules) start

@[simp] theorem run_concat (rules : Rules) (actions : List Action) (action : Action) :
    run rules (actions ++ [action]) = (run rules actions).act rules action := by
  simp [run]

/-- The problems found so far, those taken and those still pending. -/
def problems (session : Session) : List Diagnostic :=
  session.batches.flatMap Array.toList ++ session.context.pending.toList

/-- The session with all its problems taken in one batch. -/
def settled (session : Session) : Session :=
  { session with
    context := { session.context with pending := #[] }
    batches := [session.problems.toArray] }

end Session

/-! ## The balance -/

/-- What an effect adds to the depth if nothing stops it. -/
def Delta.change : Delta → Int
  | opens => 1
  | closes => -1
  | neutral => 0

section Heights

variable (deltas : List Delta) (n : Nat)

/-- The sum of the first changes. -/
def balance : Int := ((deltas.take n).map Delta.change).sum

/-- The least balance up to here, and at most 0. -/
def lowest : Int := ((List.range (n + 1)).map (balance deltas)).foldl min 0

/-- The height of the balance above the lowest so far. -/
def height : Int := balance deltas n - lowest deltas n

/-- The largest height up to here, and at least 0. -/
def highest : Int := ((List.range (n + 1)).map (height deltas)).foldl max 0

/-- The heights after the keywords among some tokens. -/
def keywordHeights (tokens : List Token) : List Int :=
  (tokens.zipIdx.filter fun place => place.1.isKeyword).map fun place =>
    height deltas (place.2 + 1)

/-- A problem at each of the tokens that bring the balance to a new lowest value. -/
def drops (tokens : List Token) : List Diagnostic :=
  (tokens.zipIdx.filter fun place => lowest deltas (place.2 + 1) < lowest deltas place.2).map
    fun place => .unmatchedEnd place.1.start

/-- The lowest balance goes down with the balance and never up. -/
theorem lowest_succ :
    lowest deltas (n + 1) = min (lowest deltas n) (balance deltas (n + 1)) := by
  unfold lowest
  rw [List.range_succ, List.map_append, List.foldl_append]
  rfl

/-- The largest height goes up with the height and never down. -/
theorem highest_succ :
    highest deltas (n + 1) = max (highest deltas n) (height deltas (n + 1)) := by
  unfold highest
  rw [List.range_succ, List.map_append, List.foldl_append]
  rfl

/-- The balance is never below the lowest one. -/
theorem height_nonneg : 0 ≤ height deltas n := by
  unfold height
  cases n with
  | zero => simp [lowest, balance]
  | succ n =>
    rw [lowest_succ]
    omega

theorem height_le_highest : height deltas n ≤ highest deltas n := by
  cases n with
  | zero => exact Int.le_max_right 0 _
  | succ n =>
    rw [highest_succ]
    omega

variable {deltas n} {delta : Delta}

/-- The balance moves by one effect at a time. -/
theorem balance_succ (h : deltas[n]? = some delta) :
    balance deltas (n + 1) = balance deltas n + delta.change := by
  unfold balance
  rw [List.take_add_one, h]
  simp

/-- A close at height 0 brings the balance to a new lowest value, and nothing else does. -/
theorem lowest_step (h : deltas[n]? = some delta) :
    lowest deltas (n + 1) =
      if delta = .closes ∧ height deltas n = 0 then lowest deltas n - 1 else lowest deltas n := by
  have hHeight := height_nonneg deltas n
  have hBalance := balance_succ h
  have hLowest := lowest_succ deltas n
  unfold height at hHeight ⊢
  -- The balance is at least as high as the lowest one, so it has to be the lowest to fall below.
  cases delta with
  | opens =>
    have hChange : balance deltas (n + 1) = balance deltas n + 1 := hBalance
    rw [if_neg (by simp)]
    omega
  | closes =>
    have hChange : balance deltas (n + 1) = balance deltas n - 1 := hBalance
    split
    · next hZero =>
      have := hZero.2
      omega
    · next hPositive =>
      have : balance deltas n - lowest deltas n ≠ 0 := fun hZero => hPositive ⟨rfl, hZero⟩
      omega
  | neutral =>
    have hChange : balance deltas (n + 1) = balance deltas n + 0 := hBalance
    rw [if_neg (by simp)]
    omega

/-- The first close and the last one are at height 0. -/
example :
    (List.range 5).map (lowest [.closes, .opens, .closes, .closes]) = [0, -1, -1, -1, -2] := by
  decide

/-- The height moves as the depth does. -/
theorem height_step (h : deltas[n]? = some delta) {depth : Nat}
    (hDepth : (depth : Int) = height deltas n) :
    ((delta.apply depth : Nat) : Int) = height deltas (n + 1) := by
  have hBalance := balance_succ h
  have hLowest := lowest_step h
  -- The depth stands for the height, so that each effect leaves a fact of linear arithmetic.
  rw [← hDepth] at hLowest
  unfold height at hDepth ⊢
  cases delta with
  | opens =>
    rw [if_neg (by simp)] at hLowest
    show ((depth + 1 : Nat) : Int) = _
    have hChange : balance deltas (n + 1) = balance deltas n + 1 := hBalance
    omega
  | closes =>
    show ((depth - 1 : Nat) : Int) = _
    have hChange : balance deltas (n + 1) = balance deltas n - 1 := hBalance
    by_cases hZero : depth = 0
    · -- The depth stops at zero, and the lowest balance falls with the balance.
      rw [if_pos ⟨rfl, by omega⟩] at hLowest
      omega
    · rw [if_neg (by omega)] at hLowest
      omega
  | neutral =>
    rw [if_neg (by simp)] at hLowest
    show (depth : Int) = _
    have hChange : balance deltas (n + 1) = balance deltas n + 0 := hBalance
    omega

end Heights

section Places

variable (deltas : List Delta) (tokens : List Token) (token : Token)

/-- A keyword adds the height behind it, and any other token adds nothing. -/
theorem keywordHeights_concat :
    keywordHeights deltas (tokens ++ [token]) = keywordHeights deltas tokens ++
      if token.isKeyword then [height deltas (tokens.length + 1)] else [] := by
  unfold keywordHeights
  cases hKeyword : token.isKeyword <;> simp [List.zipIdx_append, hKeyword]

/-- A token adds a problem if it brings the balance to a new lowest value. -/
theorem drops_concat :
    drops deltas (tokens ++ [token]) = drops deltas tokens ++
      if lowest deltas (tokens.length + 1) < lowest deltas tokens.length then
        [.unmatchedEnd token.start]
      else [] := by
  unfold drops
  split
  · next h => simp [List.zipIdx_append, h]
  · next h => simp [List.zipIdx_append, h]

end Places

/-! ## The closed form -/

namespace Session

/-- What a session shows after some tokens, in terms of the effects of these tokens and perhaps
more. -/
structure Clamped (deltas : List Delta) (tokens : List Token) (session : Session) : Prop where
  effects : session.deltas = deltas.take tokens.length
  depth : (session.context.depth : Int) = height deltas tokens.length
  maxDepth : (session.context.maxDepth : Int) = highest deltas tokens.length
  trace : session.context.trace.toList.map Nat.cast = keywordHeights deltas tokens
  problems : session.problems = drops deltas tokens
  count : (session.problems.length : Int) = -lowest deltas tokens.length

variable {rules : Rules} {deltas : List Delta} {tokens : List Token} {session : Session}

/-- At the start everything is zero. -/
theorem clamped_start (deltas : List Delta) : start.Clamped deltas [] :=
  ⟨rfl, rfl, rfl, by simp [start, Context.trace, Context.empty, keywordHeights], rfl, rfl⟩

/-- To take the problems is to move them, so that none is lost or doubled. -/
theorem problems_take (session : Session) :
    (session.act rules .take).problems = session.problems := by
  simp [problems, act, Context.take]

/-- A take leaves everything as it is. -/
theorem Clamped.take (h : session.Clamped deltas tokens) :
    (session.act rules .take).Clamped deltas tokens where
  effects := h.effects
  depth := h.depth
  maxDepth := h.maxDepth
  trace := h.trace
  problems := by rw [problems_take, h.problems]
  count := by rw [problems_take, h.count]

/-- A token that closes what is not open adds a problem in its place. -/
theorem problems_feed (session : Session) (token : Token) :
    (session.act rules (.feed token)).problems = session.problems ++
      if session.context.delta rules token = .closes ∧ session.context.depth = 0 then
        [.unmatchedEnd token.start]
      else [] := by
  show _ ++ (session.context.feed rules token).pending.toList = _
  rw [session.context.pending_feed, ← List.append_assoc]
  rfl

/-- A token with the next effect keeps the closed form. -/
theorem Clamped.feed (h : session.Clamped deltas tokens) {token : Token}
    (hDelta : deltas[tokens.length]? = some (session.context.delta rules token)) :
    (session.act rules (.feed token)).Clamped deltas (tokens ++ [token]) := by
  have hHeight := height_step hDelta h.depth
  have hLowest := lowest_step hDelta
  -- The balance falls below the lowest one exactly if the token closes what is not open.
  have hZero : height deltas tokens.length = 0 ↔ session.context.depth = 0 := by
    have hDepth := h.depth
    omega
  simp only [hZero] at hLowest
  have hDrop : lowest deltas (tokens.length + 1) < lowest deltas tokens.length ↔
      session.context.delta rules token = .closes ∧ session.context.depth = 0 := by
    rw [hLowest]
    split
    · next hUnder => exact iff_of_true (by omega) hUnder
    · next hUnder => exact iff_of_false (by omega) hUnder
  have hLength : (tokens ++ [token]).length = tokens.length + 1 := List.length_append
  refine ⟨?effects, ?depth, ?maxDepth, ?trace, ?problems, ?count⟩
  case effects =>
    show session.deltas ++ [session.context.delta rules token] = _
    rw [hLength, List.take_add_one, hDelta, h.effects]
    rfl
  case depth =>
    show ((session.context.feed rules token).depth : Int) = _
    rw [session.context.depth_feed, hHeight, hLength]
  case maxDepth =>
    -- The height has never been above the highest one, so nor is the depth above the largest.
    have hBelow : session.context.depth ≤ session.context.maxDepth := by
      have hHighest := height_le_highest deltas tokens.length
      have hDepth := h.depth
      have hMax := h.maxDepth
      omega
    show ((session.context.feed rules token).maxDepth : Int) = _
    rw [session.context.maxDepth_feed rules token hBelow, hLength, highest_succ, ← hHeight,
      ← h.maxDepth]
    omega
  case trace =>
    show (session.context.feed rules token).trace.toList.map Nat.cast = _
    rw [session.context.trace_feed, List.map_append, h.trace, keywordHeights_concat]
    split
    · rw [List.map_singleton, hHeight]
    · rfl
  case problems =>
    rw [problems_feed, drops_concat, h.problems]
    simp only [hDrop]
  case count =>
    have hCount := h.count
    rw [problems_feed, List.length_append, hLength, hLowest]
    split
    · rw [List.length_singleton]
      omega
    · rw [List.length_nil]
      omega

end Session

/-! ## Effects -/

/-- The effects of some tokens, given the keyword before them in upper case. Of each keyword only
the text in upper case matters. -/
def effectsAfter (rules : Rules) (previous : String) : List Token → List Delta
  | [] => []
  | token :: rest =>
    if token.isKeyword then
      rules.delta (upper token.text) previous :: effectsAfter rules (upper token.text) rest
    else .neutral :: effectsAfter rules previous rest

/-- The effect of a keyword does not depend on how it is written. -/
theorem delta_upper (rules : Rules) (keyword previous : String) :
    rules.delta (upper keyword) previous = rules.delta keyword previous := by
  unfold Rules.delta
  rw [upper_upper]

namespace Session

variable {rules : Rules} {deltas : List Delta}

/-- The effects of some actions can be read off the tokens that they feed, whatever is taken in
between. -/
theorem deltas_foldl (rules : Rules) (session : Session) (actions : List Action) :
    (actions.foldl (act rules) session).deltas =
      session.deltas ++ effectsAfter rules session.context.previous (tokensOf actions) := by
  induction actions generalizing session with
  | nil => simp [tokensOf, effectsAfter]
  | cons action rest ih =>
    rw [List.foldl_cons, ih]
    cases action with
    | take => rfl
    | feed token =>
      show session.deltas ++ [session.context.delta rules token] ++
        effectsAfter rules (session.context.feed rules token).previous (tokensOf rest) =
          session.deltas ++ effectsAfter rules session.context.previous (token :: tokensOf rest)
      rw [effectsAfter, List.append_assoc, session.context.previous_feed]
      cases hKeyword : token.isKeyword with
      | false =>
        rw [(session.context.feed_of_not_keyword rules token hKeyword).2]
        rfl
      | true =>
        -- The context looks at the text as it is written, but its effect is that in upper case.
        have hDelta : session.context.delta rules token =
            rules.delta (upper token.text) session.context.previous := by
          rw [delta_upper]
          exact if_pos hKeyword
        rw [hDelta]
        rfl

/-- Every token has an effect. -/
theorem length_deltas_run (rules : Rules) (actions : List Action) :
    (run rules actions).deltas.length = (tokensOf actions).length := by
  induction actions using List.reverseRecOn with
  | nil => rfl
  | append_singleton actions action ih =>
    rw [run_concat]
    cases action with
    | take =>
      rw [tokensOf_concat_take]
      exact ih
    | feed token =>
      rw [tokensOf_concat_feed, List.length_append, ← ih]
      exact List.length_append

/-! ## Runs -/

/-- The closed form holds after a run, in terms of its effects and perhaps more. -/
theorem clamped_run {actions : List Action} (h : (run rules actions).deltas <+: deltas) :
    (run rules actions).Clamped deltas (tokensOf actions) := by
  -- The induction takes the last action off, since the closed form speaks of all tokens so far.
  induction actions using List.reverseRecOn with
  | nil => exact clamped_start deltas
  | append_singleton actions action ih =>
    rw [run_concat] at h ⊢
    cases action with
    | take =>
      rw [tokensOf_concat_take]
      exact (ih h).take
    | feed token =>
      have hBefore := ih ((List.prefix_append _ _).trans h)
      -- The effect of this token comes right behind those of the tokens before.
      have hNext : deltas[(tokensOf actions).length]? =
          some ((run rules actions).context.delta rules token) := by
        obtain ⟨more, rfl⟩ := h
        rw [← length_deltas_run rules actions]
        show ((run rules actions).deltas ++ [_] ++ more)[_]? = _
        simp
      rw [tokensOf_concat_feed]
      exact hBefore.feed hNext

/-- A part of a run has the first of its effects. -/
theorem deltas_isPrefix (rules : Rules) (front back : List Action) :
    (run rules front).deltas <+: (run rules (front ++ back)).deltas := by
  rw [run, run, List.foldl_append, deltas_foldl rules (front.foldl _ _)]
  exact List.prefix_append _ _

/-! ### Takes -/

theorem problems_settled (session : Session) : session.settled.problems = session.problems := by
  simp [settled, problems]

/-- A token does the same to a session whose problems are taken. -/
theorem settled_feed (session : Session) (token : Token) :
    (session.act rules (.feed token)).settled =
      (session.settled.act rules (.feed token)).settled := by
  have hProblems : (session.act rules (.feed token)).problems =
      (session.settled.act rules (.feed token)).problems := by
    rw [problems_feed, problems_feed, problems_settled]
    rfl
  have hContext : { session.context.feed rules token with pending := #[] } =
      { session.settled.context.feed rules token with pending := #[] } := by
    unfold Context.feed
    split <;> rfl
  -- What is pending is left out of both contexts, and an effect does not depend on it.
  rw [settled, settled, hProblems]
  show (⟨_, _, _⟩ : Session) = ⟨_, _, _⟩
  rw [Session.mk.injEq]
  exact ⟨hContext, rfl, rfl⟩

/-- To take the problems does nothing to a session whose problems are taken. -/
theorem settled_take (session : Session) : (session.act rules .take).settled = session.settled := by
  rw [settled, problems_take]
  rfl

/-- Without its takes a run leads to the same session, but for what is pending. -/
theorem settled_run (rules : Rules) (actions : List Action) :
    (run rules actions).settled = (run rules ((tokensOf actions).map .feed)).settled := by
  induction actions using List.reverseRecOn with
  | nil => rfl
  | append_singleton actions action ih =>
    rw [run_concat]
    cases action with
    | take => rw [tokensOf_concat_take, settled_take, ih]
    | feed token =>
      rw [tokensOf_concat_feed, List.map_append, List.map_singleton, run_concat, settled_feed, ih,
        ← settled_feed]

end Session

/-- Any run of a context follows its effects in closed form, after every part of it. The effects
depend on the texts of the keywords in upper case, and when problems are taken makes no
difference. -/
theorem session_clamped (rules : Rules) (actions : List Action) :
    let session := Session.run rules actions
    session.deltas = effectsAfter rules "" (tokensOf actions) ∧
      (∀ front back, actions = front ++ back →
        (Session.run rules front).Clamped session.deltas (tokensOf front)) ∧
      session.settled = (Session.run rules ((tokensOf actions).map .feed)).settled := by
  intro session
  refine ⟨?_, ?_, Session.settled_run rules actions⟩
  · show (actions.foldl (Session.act rules) Session.start).deltas = _
    rw [Session.deltas_foldl]
    rfl
  · rintro front back rfl
    exact Session.clamped_run (Session.deltas_isPrefix rules front back)

/-- Two closes where nothing is open, the first of them taken before the block in between. -/
theorem session_clamped_stray :
    let close : Position → Action := fun place => .feed ⟨"end", .keyword, place⟩
    let actions : List Action := [close ⟨1, 1⟩, .take, .feed ⟨"BEGIN", .keyword, ⟨1, 5⟩⟩,
      close ⟨1, 11⟩, .feed ⟨";", .terminator, ⟨1, 14⟩⟩, close ⟨2, 1⟩]
    let session := Session.run Dialect.hsqldb.rules actions
    session.deltas = [.closes, .opens, .closes, .neutral, .closes] ∧
      session.context.trace.toList.map Nat.cast = ([0, 1, 0, 0] : List Int) ∧
      session.problems = [.unmatchedEnd ⟨1, 1⟩, .unmatchedEnd ⟨2, 1⟩] := by
  intro close actions session
  obtain ⟨hDeltas, hClamped, -⟩ := session_clamped Dialect.hsqldb.rules actions
  have hEnd := hClamped actions [] (List.append_nil actions).symm
  have hEffects : session.deltas = [.closes, .opens, .closes, .neutral, .closes] :=
    hDeltas.trans (by decide +kernel)
  refine ⟨hEffects, hEnd.trace.trans ?_, hEnd.problems.trans ?_⟩
  · rw [hEffects]
    decide
  · rw [hEffects]
    decide

end SqlScript
