import SqlScript.Locator
import SqlScript.Split.Report

/-!
# The splitter

A script is split at the terminators outside of blocks. A `Splitter` goes through the tokens with
two things in hand: a `Draft` of the current statement, which is its context and the position where
it starts, and a locator that cuts text out of the script. Each token adds a part to the report; the
last statement needs no terminator.

What is reported on a draft does not depend on how its text is found, so it is a matter of the draft
and of a piece of text.

* `Splitter.step` takes one token, `Splitter.run` several, `Splitter.finish` the end of the
  script;
* `toDraft_cut`, `diagnostics_cut` and `exists_piece_of_mem_cut` say what a cut does,
  `diagnostics_finish` and `exists_piece_of_mem_finish` what the end of the script does;
* `run_append` says that a run can be interrupted between any two tokens.
-/

namespace SqlScript

/-! ## Statements in the making -/

/-- A statement in the making. -/
structure Draft where
  /-- The context of the statement. -/
  context : Context
  /-- The position of the first token of the statement, once there is one other than blanks and
  comments. -/
  start : Option Position
  deriving Repr, Inhabited

namespace Draft

/-- The draft before the first token of a statement. -/
def empty : Draft := ⟨Context.empty, none⟩

/-- The draft with one more token. -/
def feed (rules : Rules) (draft : Draft) (token : Token) : Draft where
  context := draft.context.feed rules token
  -- Blanks and comments in front of a statement are no part of it.
  start := if token.isTrivia then draft.start else draft.start.or (some token.start)

/-- The report on one more token. -/
def reportToken (rules : Rules) (draft : Draft) (token : Token) : Report :=
  -- What is logged depends on the context before the token.
  ⟨#[], #[], draft.context.events rules token⟩

/-- The report on a draft that ends before it has started. -/
def reportBlank (draft : Draft) : Report := ⟨#[], draft.context.pending, #[]⟩

/-- The report on a draft that a terminator ends, given its start and its piece of the script. -/
def reportCut (draft : Draft) (start : Position) (piece : List Char) : Report :=
  { Report.ofStatement (Statement.ofPiece piece start draft.context true) with
    diagnostics := draft.context.pending }

/-- The report on a draft that the script ends in. An open block is a problem. -/
def reportLast (draft : Draft) (start : Position) (piece : List Char) : Report :=
  let pending := draft.context.pending
  let depth := draft.context.depth
  let last := Report.ofStatement (Statement.ofPiece piece start draft.context false)
  if depth = 0 then { last with diagnostics := pending }
  else
    -- The open block is reported before the statement that it is in.
    ⟨last.statements, pending.push (.unclosedBlock start depth),
      #[Event.openAtEnd start depth] ++ last.events⟩

/-- An open block adds no statement. -/
theorem statements_reportLast (draft : Draft) (start : Position) (piece : List Char) :
    (draft.reportLast start piece).statements =
      (Statement.ofPiece piece start draft.context false).toArray := by
  unfold reportLast
  dsimp only
  split <;> rfl

theorem diagnostics_reportLast (draft : Draft) (start : Position) (piece : List Char) :
    (draft.reportLast start piece).diagnostics =
      if draft.context.depth = 0 then draft.context.pending
      else draft.context.pending.push (.unclosedBlock start draft.context.depth) := by
  unfold reportLast
  dsimp only
  split <;> rfl

end Draft

/-- The state of the work between two tokens: a draft of the current statement, and the script with
a cursor on the position looked up last. -/
structure Splitter extends Draft where
  locator : Locator
  deriving Repr, Inhabited

namespace Splitter

/-- The splitter before the first token of a statement. -/
def fresh (locator : Locator) : Splitter := ⟨Draft.empty, locator⟩

/-- The splitter before the first token of a script. -/
def ofString (script : String) : Splitter := fresh (Locator.ofString script)

/-! ## Single tokens -/

/-- Ends the current statement before a terminator. -/
def cut (splitter : Splitter) (terminator : Position) : Splitter × Report :=
  match splitter.start with
  | none => (fresh splitter.locator, splitter.reportBlank)
  | some start =>
    let (piece, locator) := splitter.locator.slice start terminator
    (fresh locator, splitter.reportCut start piece)

/-- Goes on with the current statement. -/
def advance (rules : Rules) (splitter : Splitter) (token : Token) : Splitter × Report :=
  (⟨splitter.feed rules token, splitter.locator⟩, splitter.reportToken rules token)

/-- Takes one token. A terminator outside of blocks ends the current statement; any other token
belongs to it. -/
def step (rules : Rules) (splitter : Splitter) (token : Token) : Splitter × Report :=
  if splitter.context.cuts token then splitter.cut token.start
  else splitter.advance rules token

section Steps

variable {rules : Rules} {splitter : Splitter} {token : Token}

/-- At a token that is cut at the splitter cuts. -/
theorem step_of_cuts (h : splitter.context.cuts token) :
    splitter.step rules token = splitter.cut token.start := if_pos h

/-- Any other token is fed to the context. -/
theorem step_of_not_cuts (h : ¬ splitter.context.cuts token) :
    splitter.step rules token = splitter.advance rules token := if_neg h

variable (splitter) (terminator : Position)

/-- A cut leaves nothing in hand. -/
@[simp] theorem toDraft_cut : (splitter.cut terminator).1.toDraft = Draft.empty := by
  unfold cut
  split <;> rfl

/-- A cut hands out the problems of the statement. -/
@[simp] theorem diagnostics_cut :
    (splitter.cut terminator).2.diagnostics = splitter.context.pending := by
  unfold cut
  split <;> rfl

variable {splitter terminator} {statement : Statement}

/-- A cut makes a statement of the draft in hand only. -/
theorem exists_piece_of_mem_cut (h : statement ∈ (splitter.cut terminator).2.statements) :
    ∃ start piece, splitter.start = some start ∧
      statement ∈ Statement.ofPiece piece start splitter.context true := by
  unfold cut at h
  cases hStart : splitter.start with
  | none => simp [hStart, Draft.reportBlank] at h
  | some start =>
    simp only [hStart] at h
    exact ⟨start, _, rfl, Option.mem_toArray.mp h⟩

end Steps

/-! ## Runs -/

/-- Takes some tokens, after the work that a report is about. -/
def runAfter (rules : Rules) (splitter : Splitter) (report : Report) :
    List Token → Splitter × Report
  | [] => (splitter, report)
  | token :: rest =>
    let (next, more) := splitter.step rules token
    runAfter rules next (report ++ more) rest

/-- Takes some tokens. -/
def run (rules : Rules) (splitter : Splitter) (tokens : List Token) : Splitter × Report :=
  runAfter rules splitter Report.empty tokens

/-- Ends the script: the current statement reaches to its end. -/
def finish (splitter : Splitter) : Report :=
  match splitter.start with
  | none => splitter.reportBlank
  | some start =>
    let (piece, _) := splitter.locator.sliceFrom start
    splitter.reportLast start piece

/-- The end of the script hands out the problems of the last statement, and an open block is one
more. -/
theorem diagnostics_finish (splitter : Splitter) :
    splitter.finish.diagnostics =
      match splitter.start with
      | none => splitter.context.pending
      | some start =>
        if splitter.context.depth = 0 then splitter.context.pending
        else splitter.context.pending.push (.unclosedBlock start splitter.context.depth) := by
  unfold finish
  cases splitter.start with
  | none => rfl
  | some start => exact Draft.diagnostics_reportLast _ _ _

/-- The end of the script makes a statement of the draft in hand only. -/
theorem exists_piece_of_mem_finish {splitter : Splitter} {statement : Statement}
    (h : statement ∈ splitter.finish.statements) :
    ∃ start piece, splitter.start = some start ∧
      statement ∈ Statement.ofPiece piece start splitter.context false := by
  unfold finish at h
  cases hStart : splitter.start with
  | none => simp [hStart, Draft.reportBlank] at h
  | some start =>
    simp only [hStart, Draft.statements_reportLast] at h
    exact ⟨start, _, rfl, Option.mem_toArray.mp h⟩

/-- Takes all tokens that are left of a script and ends it. -/
def complete (rules : Rules) (splitter : Splitter) (tokens : List Token) : Report :=
  let (splitter, report) := splitter.run rules tokens
  report ++ splitter.finish

/-! ## Runs in parts -/

/-- The work before a run only stands in front of its report. -/
theorem runAfter_eq (rules : Rules) (splitter : Splitter) (report : Report) (tokens : List Token) :
    runAfter rules splitter report tokens =
      ((splitter.run rules tokens).1, report ++ (splitter.run rules tokens).2) := by
  unfold run
  induction tokens generalizing splitter report with
  | nil => simp [runAfter]
  | cons token rest ih =>
    simp only [runAfter]
    rw [ih, ih (splitter.step rules token).1 (Report.empty ++ _)]
    simp [Report.append_assoc]

@[simp] theorem run_nil (rules : Rules) (splitter : Splitter) :
    splitter.run rules [] = (splitter, Report.empty) := rfl

theorem run_cons (rules : Rules) (splitter : Splitter) (token : Token) (rest : List Token) :
    splitter.run rules (token :: rest) =
      (((splitter.step rules token).1.run rules rest).1,
        (splitter.step rules token).2 ++ ((splitter.step rules token).1.run rules rest).2) := by
  simp only [run, runAfter]
  rw [runAfter_eq, Report.empty_append, run]

/-- A run can be interrupted at any token. -/
theorem run_append (rules : Rules) (splitter : Splitter) (first second : List Token) :
    splitter.run rules (first ++ second) =
      (((splitter.run rules first).1.run rules second).1,
        (splitter.run rules first).2 ++ ((splitter.run rules first).1.run rules second).2) := by
  induction first generalizing splitter with
  | nil => simp
  | cons token rest ih => simp only [List.cons_append, run_cons, ih, Report.append_assoc]

end Splitter

end SqlScript
