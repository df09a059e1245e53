import SqlScript.Proofs.Block.Feed
import SqlScript.Proofs.Split.Parts

/-!
# The statement in hand

Between two tokens a splitter has a context and perhaps the start of a statement in hand. The two
are updated apart from each other: every token goes to the context, the start is taken from the
first one that is more than a blank or a comment, and a cut gives both up. At the end of a script an
open block is reported only if there is a start.

What ties the two together are the tokens since the last cut (`SinceCut`), and `Splitter.Holds` says
how: as long as they are trivia there is no start, and the context is a new one; from then on the
start is the position of the first other token. It is no terminator, since a terminator that a new
context meets is cut at.

## Results

* `Splitter.Holds.step` — a token that is not cut at goes to what is in hand.
* `exists_sinceCut`     — after any tokens, what is in hand agrees with those since the last cut.
* `run_held`            — so it does all along a script. Hence no open block at the end is passed
  over, and no statement starts at a terminator.
-/

namespace SqlScript

/-! ## The tokens since the last cut -/

/-- The items are the tokens since the last cut, or all tokens if there is none. -/
def SinceCut (rules : Rules) (script : String) (tokens items : List Token) : Prop :=
  ∃ done, tokens = done ++ items ∧ (done = [] ∨ CutLast rules script done) ∧
    ∀ front mark back, items = front ++ mark :: back →
      ¬ CutAfter rules script (done ++ front) mark

namespace SinceCut

variable {rules : Rules} {script : String} {tokens items : List Token}

/-- Behind a cut there are no tokens yet. -/
theorem cut {mark : Token} (h : CutAfter rules script tokens mark) :
    SinceCut rules script (tokens ++ [mark]) [] :=
  ⟨tokens ++ [mark], (List.append_nil _).symm, .inr ⟨tokens, mark, rfl, h⟩, by simp⟩

/-- A token that is not cut at is one more. -/
theorem concat (h : SinceCut rules script tokens items) {token : Token}
    (hToken : ¬ CutAfter rules script tokens token) :
    SinceCut rules script (tokens ++ [token]) (items ++ [token]) := by
  obtain ⟨done, rfl, hDone, hItems⟩ := h
  refine ⟨done, List.append_assoc .., hDone, fun front mark back hSplit => ?_⟩
  -- The place in question is that of the new token, or it is in front of it.
  rcases List.eq_nil_or_concat' back with rfl | ⟨init, last, rfl⟩
  · obtain ⟨rfl, hMark⟩ := List.append_inj' hSplit rfl
    rw [← List.singleton_inj.mp hMark]
    exact hToken
  · rw [← List.cons_append, ← List.append_assoc] at hSplit
    obtain ⟨rfl, -⟩ := List.append_inj' hSplit rfl
    exact hItems front mark init rfl

end SinceCut

/-! ## What is in hand -/

/-- The token is the first of the items that is more than trivia, and it is no terminator. -/
def Opener (items : List Token) (token : Token) : Prop :=
  ∃ lead rest, items = lead ++ token :: rest ∧ (∀ other ∈ lead, other.isTrivia = true) ∧
    token.isTrivia = false ∧ token.isTerminator = false

/-- What a splitter has in hand, if the items are the tokens since the last cut. -/
structure Splitter.Holds (rules : Rules) (splitter : Splitter) (items : List Token) : Prop where
  /-- The context has been fed these tokens and no others. -/
  context : splitter.context = Context.empty.feedAll rules items
  /-- No statement has begun if and only if they are trivia. -/
  start_eq_none : splitter.start = none ↔ ∀ token ∈ items, token.isTrivia = true
  /-- Until one has, the context is a new one. -/
  empty : splitter.start = none → splitter.context = Context.empty
  /-- One begins with the first other token, which is no terminator. -/
  opener : ∀ start ∈ splitter.start, ∃ token, Opener items token ∧ token.start = start

/-- A statement begins at the position: its token opens what follows a cut or the start of the
script. -/
def BeginsAt (rules : Rules) (script : String) (tokens : List Token) (start : Position) : Prop :=
  ∃ done items token, tokens = done ++ items ∧ (done = [] ∨ CutLast rules script done) ∧
    Opener items token ∧ token.start = start

theorem Opener.append {items : List Token} {token : Token} (h : Opener items token)
    (more : List Token) : Opener (items ++ more) token := by
  obtain ⟨lead, rest, rfl, hToken⟩ := h
  exact ⟨lead, rest ++ more, by simp, hToken⟩

theorem BeginsAt.append {rules : Rules} {script : String} {tokens : List Token} {start : Position}
    (h : BeginsAt rules script tokens start) (more : List Token) :
    BeginsAt rules script (tokens ++ more) start := by
  obtain ⟨done, items, token, rfl, hDone, hOpener, hStart⟩ := h
  exact ⟨done, items ++ more, token, List.append_assoc .., hDone, hOpener.append more, hStart⟩

namespace Splitter

variable {rules : Rules} {splitter : Splitter} {items : List Token}

/-- Nothing has begun yet. -/
theorem holds_of_trivia (hStart : splitter.start = none) (hContext : splitter.context = .empty)
    (hItems : ∀ token ∈ items, token.isTrivia = true) : splitter.Holds rules items where
  context := by
    have hKeywords : ∀ token ∈ items, token.isKeyword = false :=
      fun token hToken => Token.isKeyword_of_isTrivia (hItems token hToken)
    rw [hContext, Context.feedAll_of_not_keyword rules _ hKeywords]
  start_eq_none := iff_of_true hStart hItems
  empty _ := hContext
  opener := by
    rw [hStart]
    nofun

/-- A statement has begun. -/
theorem holds_of_opener {token : Token} (hOpener : Opener items token)
    (hStart : splitter.start = some token.start)
    (hContext : splitter.context = Context.empty.feedAll rules items) :
    splitter.Holds rules items where
  context := hContext
  start_eq_none := by
    obtain ⟨lead, rest, rfl, -, hSolid, -⟩ := hOpener
    rw [hStart]
    -- The opener is among the items and says something, so they are not all trivia.
    refine iff_of_false nofun fun hTrivia => ?_
    have hBoth := hTrivia token (by simp)
    rw [hSolid] at hBoth
    cases hBoth
  empty := by
    rw [hStart]
    nofun
  opener start hMem := by
    rw [hStart] at hMem
    exact ⟨token, hOpener, Option.mem_some_iff.mp hMem⟩

namespace Holds

/-- A token that is not cut at goes to what is in hand. -/
theorem step (h : splitter.Holds rules items) {token : Token}
    (hToken : ¬ splitter.context.cuts token) :
    (splitter.step rules token).1.Holds rules (items ++ [token]) := by
  rw [step_of_not_cuts hToken]
  have hStart : (splitter.advance rules token).1.start =
      if token.isTrivia then splitter.start else splitter.start.or (some token.start) := rfl
  have hContext : (splitter.advance rules token).1.context =
      Context.empty.feedAll rules (items ++ [token]) := by
    rw [Context.feedAll_append, ← h.context]
    rfl
  cases hBegun : splitter.start with
  | some start =>
    -- The statement goes on, and the first token stays what it is.
    obtain ⟨first, hOpener, rfl⟩ := h.opener start hBegun
    refine holds_of_opener (hOpener.append [token]) ?_ hContext
    rw [hStart, hBegun]
    split <;> rfl
  | none =>
    have hTrivia := h.start_eq_none.mp hBegun
    have hEmpty := h.empty hBegun
    by_cases hBlank : token.isTrivia = true
    · -- Still there are only trivia, and they leave the context as it is.
      refine holds_of_trivia ?_ ?_ ?_
      · rw [hStart, if_pos hBlank, hBegun]
      · have hKeyword := Token.isKeyword_of_isTrivia hBlank
        have hFeed := (splitter.context.feed_of_not_keyword rules token hKeyword).1
        exact hFeed.trans hEmpty
      · intro other hOther
        rcases List.mem_append.mp hOther with hOld | hNew
        · exact hTrivia other hOld
        · rw [List.mem_singleton.mp hNew]
          exact hBlank
    · -- The statement begins. A terminator would have been cut at, since no block is open.
      rw [Bool.not_eq_true] at hBlank
      have hMark : token.isTerminator = false := by
        rw [Bool.eq_false_iff]
        intro hMark
        refine hToken ⟨hMark, ?_⟩
        rw [hEmpty]
        rfl
      refine holds_of_opener ⟨items, [], rfl, hTrivia, hBlank, hMark⟩ ?_ hContext
      rw [hStart, hBlank, hBegun]
      rfl

end Holds

/-- Behind a cut nothing is in hand. -/
theorem holds_of_cuts {token : Token} (h : splitter.context.cuts token) :
    (splitter.step rules token).1.Holds rules [] := by
  have hContext := splitter.context_step rules token
  rw [if_pos h] at hContext
  refine holds_of_trivia ?_ hContext nofun
  rw [step_of_cuts h, toDraft_cut]
  rfl

/-! ## Statements of the start in hand -/

/-- A token makes a statement of the start in hand only. -/
theorem start_of_mem_step {token : Token} {statement : Statement}
    (h : statement ∈ (splitter.step rules token).2.statements) :
    splitter.start = some statement.start := by
  by_cases hCuts : splitter.context.cuts token
  · rw [step_of_cuts hCuts] at h
    obtain ⟨start, piece, hStart, hPiece⟩ := exists_piece_of_mem_cut h
    rw [hStart, Statement.eq_of_mem_ofPiece hPiece]
  · rw [step_of_not_cuts hCuts] at h
    exact absurd h (Array.not_mem_empty statement)

/-- So does the end of the script. -/
theorem start_of_mem_finish {statement : Statement} (h : statement ∈ splitter.finish.statements) :
    splitter.start = some statement.start := by
  obtain ⟨start, piece, hStart, hPiece⟩ := exists_piece_of_mem_finish h
  rw [hStart, Statement.eq_of_mem_ofPiece hPiece]

/-- At the end of the script an open block is the last problem, if a statement has begun. -/
theorem back?_diagnostics_finish {start : Position} (hStart : splitter.start = some start)
    (hDepth : splitter.context.depth ≠ 0) :
    splitter.finish.diagnostics.back? = some (.unclosedBlock start splitter.context.depth) := by
  rw [diagnostics_finish]
  simp only [hStart, if_neg hDepth, Array.back?_push]

theorem run_concat (splitter : Splitter) (tokens : List Token) (token : Token) :
    splitter.run rules (tokens ++ [token]) =
      (((splitter.run rules tokens).1.step rules token).1,
        (splitter.run rules tokens).2 ++ ((splitter.run rules tokens).1.step rules token).2) := by
  rw [run_append, run_cons, run_nil, Report.append_empty]

end Splitter

/-! ## Along a script -/

section Script

variable {rules : Rules} {script : String}

/-- After any tokens, what is in hand agrees with those since the last cut. -/
theorem exists_sinceCut (rules : Rules) (script : String) (tokens : List Token) :
    ∃ items, SinceCut rules script tokens items ∧
      ((Splitter.ofString script).run rules tokens).1.Holds rules items := by
  -- The last token is cut at, or it goes to what the others have left in hand.
  induction tokens using List.reverseRecOn with
  | nil => exact ⟨[], ⟨[], rfl, .inl rfl, by simp⟩, Splitter.holds_of_trivia rfl rfl nofun⟩
  | append_singleton tokens token ih =>
    obtain ⟨items, hSince, hHolds⟩ := ih
    rw [Splitter.run_concat]
    by_cases hCuts : CutAfter rules script tokens token
    · exact ⟨[], SinceCut.cut hCuts, Splitter.holds_of_cuts hCuts⟩
    · exact ⟨items ++ [token], hSince.concat (hCuts), hHolds.step hCuts⟩

/-- The start in hand is one that a statement begins at. -/
theorem beginsAt_of_start {tokens : List Token} {start : Position}
    (h : ((Splitter.ofString script).run rules tokens).1.start = some start) :
    BeginsAt rules script tokens start := by
  obtain ⟨items, ⟨done, hTokens, hDone, -⟩, hHolds⟩ := exists_sinceCut rules script tokens
  obtain ⟨token, hOpener, hStart⟩ := hHolds.opener start h
  exact ⟨done, items, token, hTokens, hDone, hOpener, hStart⟩

/-- All statements that are cut begin where the tokens say. -/
theorem beginsAt_of_mem_run {tokens : List Token} {statement : Statement}
    (h : statement ∈ ((Splitter.ofString script).run rules tokens).2.statements) :
    BeginsAt rules script tokens statement.start := by
  induction tokens using List.reverseRecOn with
  | nil => simp [Report.empty] at h
  | append_singleton tokens token ih =>
    rw [Splitter.run_concat, Report.append_def] at h
    -- The statement was there before, or the last token has cut it.
    refine BeginsAt.append ?_ [token]
    rcases Array.mem_append.mp h with hOld | hNew
    · exact ih hOld
    · exact beginsAt_of_start (Splitter.start_of_mem_step hNew)

end Script

/-- What a splitter has in hand agrees with the tokens since the last cut, before every token of a
script and behind the last one. Hence a block that is open at the end is always reported, and every
statement begins with a token that is the first behind a cut to be more than trivia, and no
terminator. -/
theorem run_held (rules : Rules) (script : String) (tokens : List Token) :
    let result := splitTokens rules script tokens
    let last := ((Splitter.ofString script).run rules tokens).1
    (∀ count, ∃ items, SinceCut rules script (tokens.take count) items ∧
      ((Splitter.ofString script).run rules (tokens.take count)).1.Holds rules items) ∧
    (last.context.depth ≠ 0 → ∃ start ∈ last.start,
      result.diagnostics.back? = some (.unclosedBlock start last.context.depth)) ∧
    ∀ statement ∈ result.statements, BeginsAt rules script tokens statement.start := by
  intro result last
  refine ⟨fun count => exists_sinceCut rules script _, fun hDepth => ?_, ?_⟩
  · -- A context with an open block is not a new one, so a statement has begun.
    obtain ⟨items, -, hHolds⟩ := exists_sinceCut rules script tokens
    cases hStart : last.start with
    | none =>
      have hEmpty : last.context = Context.empty := hHolds.empty hStart
      rw [hEmpty] at hDepth
      exact absurd rfl hDepth
    | some start =>
      refine ⟨start, rfl, ?_⟩
      have hLast := Splitter.back?_diagnostics_finish hStart hDepth
      show ((_ ++ last.finish.diagnostics : Array Diagnostic)).back? = _
      rw [Array.back?_append, hLast]
      rfl
  · intro statement hStatement
    have hMem : statement ∈ ((Splitter.ofString script).run rules tokens).2.statements ++
        last.finish.statements := hStatement
    rcases Array.mem_append.mp hMem with hCut | hEnd
    · exact beginsAt_of_mem_run hCut
    · exact beginsAt_of_start (Splitter.start_of_mem_finish hEnd)

/-- A comment in front of a cut, and a block that is open at the end. -/
theorem run_held_open :
    let tokens : List Token := [⟨"--", .comment, ⟨1, 1⟩⟩, ⟨";", .terminator, ⟨2, 1⟩⟩,
      ⟨" ", .whitespace, ⟨2, 2⟩⟩, ⟨"BEGIN", .keyword, ⟨2, 3⟩⟩, ⟨";", .terminator, ⟨2, 8⟩⟩]
    ∃ start, (splitTokens Dialect.hsqldb.rules "--\n; BEGIN;" tokens).diagnostics.back? =
      some (.unclosedBlock start 1) := by
  intro tokens
  obtain ⟨-, hOpen, -⟩ := run_held Dialect.hsqldb.rules "--\n; BEGIN;" tokens
  have hDepth : ((Splitter.ofString "--\n; BEGIN;").run Dialect.hsqldb.rules
      tokens).1.context.depth = 1 := by decide +kernel
  rw [hDepth] at hOpen
  obtain ⟨start, -, hLast⟩ := hOpen (by decide)
  exact ⟨start, hLast⟩

end SqlScript
