import SqlScript.Proofs.Block.Clause
import SqlScript.Proofs.Block.Couple
import SqlScript.Proofs.Split.Taken

/-!
# One context for a whole script

A splitter starts a new context behind every cut. Would it come to the same if one context were fed
the whole script? The two histories differ behind every cut: the new context has seen no keyword
yet, the other one still knows the last keyword of the statement before. That can be told by the
words whose effect depends on the keyword in front of them (`dependentWords`), and by no others.

So if no statement behind a cut has one of these as its first keyword, the one context goes through
the same depths as all the others, one after the other (`Context.Continues`). After the first
keyword the two have seen the same last keyword, and a cut is made where no block is open, so the
depth carries over.

## Results

* `Context.delta_of_independent` — other words have the same effect behind any keyword.
* `Context.Continues.feed`,
  `Context.Continues.cut`        — one token, and one cut.
* `Splitter.continues_run`       — all tokens.
* `feedAll_resumed`              — hence the depths, the strays and the largest depth of a script.
-/

namespace SqlScript

/-! ## Words that look back -/

/-- The words whose effect depends on the keyword in front of them. -/
def dependentWords : List String := ["IF", "FOR", "CASE", "EACH", "SQLEXCEPTION"]

/-- The role of any other word decides on its effect. -/
theorem Role.delta_of_independent {word : String} (h : word ∉ dependentWords)
    (previous other : Role) (afterObject afterOther : Bool) :
    (ofWord word).delta previous afterObject = (ofWord word).delta other afterOther := by
  simp only [dependentWords, List.mem_cons, List.not_mem_nil, or_false, not_or] at h
  obtain ⟨hIf, hFor, hCase, hClause⟩ := h
  unfold ofWord
  rw [if_neg hIf, if_neg hFor, if_neg hCase, if_neg (not_or.mpr hClause)]
  -- What is left is `BEGIN`, `END` and the plain words.
  split
  · rfl
  · split
    · rfl
    · rfl

namespace Context

variable {rules : Rules} {token : Token}

/-- Other words have the same effect in every context. -/
theorem delta_of_independent (h : ¬ token.Reads dependentWords) (first second : Context) :
    first.delta rules token = second.delta rules token := by
  unfold delta
  by_cases hKeyword : token.isKeyword = true
  · have hWord : upper token.text ∉ dependentWords := fun hMem => h ⟨hKeyword, hMem⟩
    rw [if_pos hKeyword, if_pos hKeyword]
    unfold Rules.delta
    split
    · exact Role.delta_of_independent hWord _ _ _ _
    · rfl
  · rw [if_neg hKeyword, if_neg hKeyword]

/-- All words have the same effect behind the same keyword. -/
theorem delta_of_previous_eq {first second : Context} (h : first.previous = second.previous)
    (token : Token) : first.delta rules token = second.delta rules token := by
  unfold delta
  rw [h]

/-! ## Contexts in sequence -/

/-- The largest depth in some contexts. -/
def largestDepth (contexts : List Context) : Nat := (contexts.map maxDepth).foldl max 0

/-- The whole context has gone through what the ended ones have, one after the other, and then
through what the own one has. -/
structure Continues (ended : List Context) (whole own : Context) : Prop where
  depth : whole.depth = own.depth
  maxDepth : whole.maxDepth = max (largestDepth ended) own.maxDepth
  trace : whole.trace.toList = (ended.flatMap fun context => context.trace.toList) ++
    own.trace.toList
  pending : whole.pending.toList = (ended.flatMap fun context => context.pending.toList) ++
    own.pending.toList

namespace Continues

variable {ended : List Context} {whole own : Context}

/-- A token that has the same effect in both contexts. -/
theorem feed (h : Continues ended whole own)
    (hDelta : whole.delta rules token = own.delta rules token) :
    Continues ended (whole.feed rules token) (own.feed rules token) := by
  by_cases hKeyword : token.isKeyword = true
  · refine ⟨?depth, ?maxDepth, ?trace, ?pending⟩
    case depth => rw [depth_feed, depth_feed, hDelta, h.depth]
    case maxDepth =>
      rw [feed_of_keyword rules whole token hKeyword, feed_of_keyword rules own token hKeyword]
      show max whole.maxDepth ((whole.delta rules token).apply whole.depth) =
        max (largestDepth ended) (max own.maxDepth ((own.delta rules token).apply own.depth))
      rw [hDelta, h.depth, h.maxDepth, Nat.max_assoc]
    case trace => rw [trace_feed, trace_feed, hDelta, h.depth, h.trace, List.append_assoc]
    case pending => rw [pending_feed, pending_feed, hDelta, h.depth, h.pending, List.append_assoc]
  · -- Other tokens than keywords leave both as they are.
    rw [Bool.not_eq_true] at hKeyword
    rw [(whole.feed_of_not_keyword rules token hKeyword).1,
      (own.feed_of_not_keyword rules token hKeyword).1]
    exact h

/-- A cut, behind which a new context goes on. -/
theorem cut (h : Continues ended whole own) (hDepth : own.depth = 0) :
    Continues (ended ++ [own]) whole Context.empty where
  depth := h.depth.trans hDepth
  maxDepth := by
    -- The largest depth of the statement that ends is taken up by the list of those that have.
    have hLargest : largestDepth (ended ++ [own]) = max (largestDepth ended) own.maxDepth := by
      simp [largestDepth]
    rw [hLargest, h.maxDepth]
    exact (Nat.max_zero _).symm
  trace := by
    have hNone : Context.empty.trace.toList = [] := by simp [Context.trace, Context.empty]
    rw [h.trace, List.flatMap_append, List.flatMap_singleton, hNone, List.append_nil]
  pending := by
    rw [h.pending, List.flatMap_append, List.flatMap_singleton]
    exact (List.append_nil _).symm

end Continues

end Context

/-! ## Along the steps of a splitter -/

namespace Splitter

/-- The contexts that a splitter gives up at the cuts. -/
def ended (rules : Rules) (splitter : Splitter) : List Token → List Context
  | [] => []
  | token :: rest =>
    let later := ended rules (splitter.step rules token).1 rest
    if splitter.context.cuts token then splitter.context :: later else later

/-- The contexts of a splitter: those that it gives up at the cuts, and the one at the end. -/
def contexts (rules : Rules) (splitter : Splitter) (tokens : List Token) : List Context :=
  splitter.ended rules tokens ++ [(splitter.run rules tokens).1.context]

/-- The first keywords of what follows each cut. Whether one is still to come of what is in hand,
which follows a cut, is given. -/
def firstKeywords (rules : Rules) (splitter : Splitter) (toCome : Bool) : List Token → List Token
  | [] => []
  | token :: rest =>
    let next := (splitter.step rules token).1
    if splitter.context.cuts token then firstKeywords rules next true rest
    else if token.isKeyword then
      (if toCome then [token] else []) ++ firstKeywords rules next false rest
    else firstKeywords rules next toCome rest

variable {rules : Rules} {splitter : Splitter}

theorem ended_cons (token : Token) (rest : List Token) :
    splitter.ended rules (token :: rest) =
      (if splitter.context.cuts token then [splitter.context] else []) ++
        (splitter.step rules token).1.ended rules rest := by
  rw [ended]
  split <;> rfl

/-- The one context goes on through all tokens like the contexts of the splitter. The two have seen
the same last keyword, unless a first keyword is still to come. -/
theorem continues_run {tokens : List Token} {toCome : Bool} {before : List Context}
    {whole : Context} (h : Context.Continues before whole splitter.context)
    (hPrevious : toCome = true ∨ whole.previous = splitter.context.previous)
    (hFirst : ∀ token ∈ splitter.firstKeywords rules toCome tokens,
      ¬ token.Reads dependentWords) :
    Context.Continues (before ++ splitter.ended rules tokens) (whole.feedAll rules tokens)
      (splitter.run rules tokens).1.context := by
  induction tokens generalizing splitter toCome before whole with
  | nil =>
    rw [ended, List.append_nil]
    exact h
  | cons token rest ih =>
    rw [firstKeywords] at hFirst
    rw [run_cons, ended_cons, ← List.append_assoc, Context.feedAll_cons]
    have hStep := context_step rules splitter token
    by_cases hCuts : splitter.context.cuts token
    · -- A terminator is no keyword, so the one context does not notice it.
      have hKeyword := Token.isKeyword_of_isTerminator hCuts.1
      rw [if_pos hCuts] at hFirst ⊢
      rw [(whole.feed_of_not_keyword rules token hKeyword).1]
      have hEmpty : (splitter.step rules token).1.context = Context.empty :=
        hStep.trans (if_pos hCuts)
      refine ih ?_ (.inl rfl) hFirst
      rw [hEmpty]
      exact h.cut (of_decide_eq_true hCuts.2)
    · rw [if_neg hCuts] at hFirst ⊢
      rw [List.append_nil]
      have hNext : (splitter.step rules token).1.context = splitter.context.feed rules token :=
        hStep.trans (if_neg hCuts)
      by_cases hKeyword : token.isKeyword = true
      · -- A first keyword has the same effect behind any other, and a later one is behind the same.
        rw [if_pos hKeyword] at hFirst
        obtain ⟨hToken, hRest⟩ := List.forall_mem_append.mp hFirst
        have hDelta : whole.delta rules token = splitter.context.delta rules token := by
          rcases hPrevious with rfl | hSame
          · exact Context.delta_of_independent (hToken token (by simp)) _ _
          · exact Context.delta_of_previous_eq hSame token
        refine ih ?_ (.inr ?_) hRest
        · rw [hNext]
          exact h.feed hDelta
        · rw [hNext, Context.previous_feed, Context.previous_feed, if_pos hKeyword,
            if_pos hKeyword]
      · rw [if_neg hKeyword] at hFirst
        rw [Bool.not_eq_true] at hKeyword
        rw [(whole.feed_of_not_keyword rules token hKeyword).1]
        have hSame : (splitter.step rules token).1.context = splitter.context := by
          rw [hNext, (splitter.context.feed_of_not_keyword rules token hKeyword).1]
        rw [← hSame] at h hPrevious
        exact ih h hPrevious hFirst

/-- What a token adds to the problems. -/
theorem diagnostics_step (rules : Rules) (splitter : Splitter) (token : Token) :
    (splitter.step rules token).2.diagnostics =
      if splitter.context.cuts token then splitter.context.pending else #[] := by
  by_cases hCuts : splitter.context.cuts token
  · rw [if_pos hCuts, step_of_cuts hCuts, diagnostics_cut]
  · rw [if_neg hCuts, step_of_not_cuts hCuts]
    rfl

/-- The problems up to the end are those of the contexts that are given up. -/
theorem diagnostics_run (rules : Rules) (splitter : Splitter) (tokens : List Token) :
    (splitter.run rules tokens).2.diagnostics.toList =
      (splitter.ended rules tokens).flatMap fun context => context.pending.toList := by
  induction tokens generalizing splitter with
  | nil => rfl
  | cons token rest ih =>
    rw [run_cons, Report.append_def, Array.toList_append, ih, diagnostics_step, ended_cons,
      List.flatMap_append]
    split
    · rw [List.flatMap_singleton]
    · rfl

/-- The strays that are reported at the end are those of the last context. -/
theorem strays_finish (splitter : Splitter) :
    splitter.finish.diagnostics.toList.filter Diagnostic.isUnmatchedEnd =
      splitter.context.pending.toList.filter Diagnostic.isUnmatchedEnd := by
  rw [diagnostics_finish]
  cases splitter.start with
  | none => rfl
  | some start =>
    dsimp only
    split
    · rfl
    · -- An open block is a problem of its own, and no stray.
      rw [Array.toList_push, List.filter_append]
      exact List.append_nil _

end Splitter

/-- A context that starts empty finds nothing but strays. -/
theorem isUnmatchedEnd_of_mem_pending {rules : Rules} {tokens : List Token} {problem : Diagnostic}
    (h : problem ∈ (Context.empty.feedAll rules tokens).pending.toList) :
    problem.isUnmatchedEnd = true := by
  rcases Context.mem_pending (Array.mem_toList_iff.mp h) with hNone | ⟨token, -, -, rfl⟩
  · simp [Context.empty] at hNone
  · rfl

/-- What the one context of a script comes to is what the contexts of its statements come to, one
after the other. -/
structure Resumed (rules : Rules) (script : String) (tokens : List Token) : Prop where
  trace : (Context.empty.feedAll rules tokens).trace.toList =
    ((Splitter.ofString script).contexts rules tokens).flatMap fun context => context.trace.toList
  strays : (Context.empty.feedAll rules tokens).pending.toList =
    (splitTokens rules script tokens).diagnostics.toList.filter Diagnostic.isUnmatchedEnd
  depth : some (Context.empty.feedAll rules tokens).depth =
    ((Splitter.ofString script).contexts rules tokens).getLast?.map Context.depth
  maxDepth : (Context.empty.feedAll rules tokens).maxDepth =
    Context.largestDepth ((Splitter.ofString script).contexts rules tokens)

/-- A new context for every statement makes a difference only where the first keyword behind a cut
is one whose effect depends on the keyword in front of it. Otherwise one context for all tokens goes
through the same depths, finds the same strays and ends at the same depth. -/
theorem feedAll_resumed {rules : Rules} {script : String} {tokens : List Token}
    (h : ∀ token ∈ (Splitter.ofString script).firstKeywords rules false tokens,
      ¬ token.Reads dependentWords) : Resumed rules script tokens := by
  have hStart : Context.Continues [] Context.empty (Splitter.ofString script).context :=
    ⟨rfl, rfl, rfl, rfl⟩
  -- The invariant holds at the start, where nothing has ended, and so for the whole run.
  have hAll := Splitter.continues_run hStart (.inr rfl) h
  rw [List.nil_append] at hAll
  refine ⟨?trace, ?strays, ?depth, ?maxDepth⟩
  case trace =>
    rw [hAll.trace, Splitter.contexts, List.flatMap_append, List.flatMap_singleton]
  case strays =>
    -- What is reported at the end comes behind the run, and a block that is left open is no stray.
    have hProblems : (splitTokens rules script tokens).diagnostics.toList =
        ((Splitter.ofString script).run rules tokens).2.diagnostics.toList ++
          ((Splitter.ofString script).run rules tokens).1.finish.diagnostics.toList :=
      Array.toList_append
    rw [hProblems, List.filter_append, Splitter.strays_finish, Splitter.diagnostics_run,
      ← List.filter_append, ← hAll.pending]
    exact (List.filter_eq_self.mpr fun _ hMem => isUnmatchedEnd_of_mem_pending hMem).symm
  case depth =>
    rw [hAll.depth, Splitter.contexts, List.getLast?_concat]
    rfl
  case maxDepth =>
    rw [hAll.maxDepth]
    simp [Splitter.contexts, Context.largestDepth]

/-- A stray, a block and a block that is left open, with `CASE` behind another keyword. -/
theorem feedAll_resumed_case :
    Resumed Dialect.hsqldb.rules "" [⟨"end", .keyword, ⟨1, 1⟩⟩, ⟨";", .terminator, ⟨1, 4⟩⟩,
      ⟨"SELECT", .keyword, ⟨1, 5⟩⟩, ⟨"CASE", .keyword, ⟨1, 12⟩⟩, ⟨"END", .keyword, ⟨1, 17⟩⟩,
      ⟨";", .terminator, ⟨1, 20⟩⟩, ⟨"BEGIN", .keyword, ⟨1, 21⟩⟩] :=
  feedAll_resumed (by decide +kernel)

/-- A first keyword that looks back: behind the `END` in front of the cut, `IF` opens nothing in the
one context, while the new one counts a block. -/
example :
    let tokens : List Token := [⟨"END", .keyword, ⟨1, 1⟩⟩, ⟨";", .terminator, ⟨1, 4⟩⟩,
      ⟨"IF", .keyword, ⟨1, 5⟩⟩]
    (Context.empty.feedAll Dialect.hsqldb.rules tokens).depth = 0 ∧
      ((Splitter.ofString "").run Dialect.hsqldb.rules tokens).1.context.depth = 1 := by
  decide +kernel

end SqlScript
