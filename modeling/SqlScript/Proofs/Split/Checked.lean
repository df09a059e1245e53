import SqlScript.Proofs.Locator.Checked
import SqlScript.Proofs.Split.Excerpt

/-!
# Splits with every look-up checked

A splitter takes tokens from anywhere. They need not be those of the script, so they may start at
places that the script does not have, or go back and forth in it. The only steps of a splitter that
could go wrong then are the look-ups: the rest of the work adds to lists and counts blocks, down to
zero and no further.

`CheckedSplitter` works on the same `Draft` as a `Splitter` does, but with the checked look-ups of a
`Cursor`, and it has no result if one of them has none. As the cursor follows the locator of the
other splitter (`Locator.Follows`), each step has a result, and it is the same. What a look-up cuts
out stands in the script, and a statement is what trimming leaves of it.

## Results

* `Splitter.Follows.step`,
  `Splitter.Follows.run`  — the two splitters stay together over a token, and over all of them.
* `splitTokens_checked`   — whatever is looked up and whatever the tokens are, no step fails, and
  every statement is a part of the script without blank ends.
-/

namespace SqlScript

/-! ## Splitting with a cursor -/

/-- The state of the work between two tokens, with a cursor in place of a locator. -/
structure CheckedSplitter extends Draft where
  cursor : Cursor

namespace CheckedSplitter

/-- The state before the first token of a statement. -/
def fresh (cursor : Cursor) : CheckedSplitter := ⟨Draft.empty, cursor⟩

/-- The state before the first token of a script. -/
def initial : CheckedSplitter := fresh Cursor.start

/-- Ends the current statement before a terminator. -/
def cut (script : String) (splitter : CheckedSplitter) (terminator : Position) :
    Option (CheckedSplitter × Report) :=
  match splitter.start with
  | none => some (fresh splitter.cursor, splitter.reportBlank)
  | some start => do
    let (piece, cursor) ← splitter.cursor.slice script start terminator
    return (fresh cursor, splitter.reportCut start piece.toList)

/-- Takes one token. Only a cut looks text up. -/
def step (script : String) (rules : Rules) (splitter : CheckedSplitter) (token : Token) :
    Option (CheckedSplitter × Report) :=
  if splitter.context.cuts token then splitter.cut script token.start
  else some (⟨splitter.feed rules token, splitter.cursor⟩, splitter.reportToken rules token)

/-- Takes some tokens. -/
def run (script : String) (rules : Rules) (splitter : CheckedSplitter) :
    List Token → Option (CheckedSplitter × Report)
  | [] => some (splitter, Report.empty)
  | token :: rest => do
    let (next, first) ← splitter.step script rules token
    let (last, more) ← run script rules next rest
    return (last, first ++ more)

/-- Ends the script. -/
def finish (script : String) (splitter : CheckedSplitter) : Option Report :=
  match splitter.start with
  | none => some splitter.reportBlank
  | some start => do
    let (piece, _) ← splitter.cursor.sliceFrom script start
    return splitter.reportLast start piece.toList

/-- Takes all tokens of a script and ends it. -/
def complete (script : String) (rules : Rules) (splitter : CheckedSplitter)
    (tokens : List Token) : Option Report := do
  let (splitter, report) ← splitter.run script rules tokens
  let last ← splitter.finish script
  return report ++ last

end CheckedSplitter

/-! ## Statements that stand in the script -/

/-- The statement is a part of the script, without blank ends and not empty. -/
def Statement.IsPart (script : String) (statement : Statement) : Prop :=
  Trimmed statement.text.toList ∧ statement.text.toList <:+: script.toList

/-- So are all statements of a report. -/
def Report.HasParts (script : String) (report : Report) : Prop :=
  ∀ statement ∈ report.statements, statement.IsPart script

namespace Report.HasParts

variable {script : String} {first second : Report}

theorem append (h : first.HasParts script) (h' : second.HasParts script) :
    (first ++ second).HasParts script := by
  intro statement hStatement
  rw [append_def] at hStatement
  exact (Array.mem_append.mp hStatement).elim (h statement) (h' statement)

/-- The report has the statement that a part of the script makes, if it has any. -/
theorem ofPiece {piece : List Char} (h : piece <:+: script.toList) {report : Report}
    {start : Position} {context : Context} {terminated : Bool}
    (hStatements : report.statements =
      (Statement.ofPiece piece start context terminated).toArray) : report.HasParts script := by
  intro statement hStatement
  rw [hStatements] at hStatement
  have hMem := Option.mem_toArray.mp hStatement
  have hText : statement.text.toList = trimChars piece := by
    rw [Statement.eq_of_mem_ofPiece hMem, String.toList_ofList]
  -- A piece of blanks only would not have made a statement.
  have hSome : trimChars piece ≠ [] := by
    intro hNil
    simp [Statement.ofPiece, hNil] at hMem
  rw [Statement.IsPart, hText]
  exact ⟨trimmed_trimChars hSome, (trimChars_isInfix piece).trans h⟩

end Report.HasParts

/-! ## The two splitters -/

namespace Splitter

/-- The two splitters have the same statement in hand, and the cursor of one follows the locator of
the other. -/
structure Follows (splitter : Splitter) (script : String) (checked : CheckedSplitter) : Prop where
  draft : splitter.toDraft = checked.toDraft
  locator : splitter.locator.Follows script checked.cursor

theorem follows_ofString (script : String) :
    (ofString script).Follows script CheckedSplitter.initial :=
  ⟨rfl, Locator.follows_ofString script⟩

namespace Follows

variable {splitter : Splitter} {script : String} {checked : CheckedSplitter}

/-- A checked cut succeeds and does what the other does. -/
theorem cut (h : splitter.Follows script checked) (terminator : Position) :
    ∃ next, checked.cut script terminator = some (next, (splitter.cut terminator).2) ∧
      (splitter.cut terminator).1.Follows script next ∧
      (splitter.cut terminator).2.HasParts script := by
  unfold Splitter.cut CheckedSplitter.cut
  rw [h.draft]
  cases checked.start with
  | none => exact ⟨_, rfl, ⟨rfl, h.locator⟩, nofun⟩
  | some start =>
    obtain ⟨cursor, hPiece, hPart, hCursor⟩ := h.locator.slice start terminator
    simp only [hPiece, Option.bind_eq_bind, Option.bind_some, String.toList_ofList]
    exact ⟨_, rfl, ⟨rfl, hCursor⟩, .ofPiece hPart rfl⟩

/-- The splitters stay together over a token. -/
theorem step (h : splitter.Follows script checked) (rules : Rules) (token : Token) :
    ∃ next, checked.step script rules token = some (next, (splitter.step rules token).2) ∧
      (splitter.step rules token).1.Follows script next ∧
      (splitter.step rules token).2.HasParts script := by
  unfold Splitter.step CheckedSplitter.step
  rw [h.draft]
  by_cases hCuts : checked.context.cuts token
  · rw [if_pos hCuts, if_pos hCuts]
    exact h.cut token.start
  · rw [if_neg hCuts, if_neg hCuts]
    -- No position is looked up, so the cursor stays where it is.
    unfold Splitter.advance
    rw [h.draft]
    exact ⟨_, rfl, ⟨rfl, h.locator⟩, nofun⟩

/-- They stay together over any tokens. -/
theorem run (h : splitter.Follows script checked) (rules : Rules) (tokens : List Token) :
    ∃ last, checked.run script rules tokens = some (last, (splitter.run rules tokens).2) ∧
      (splitter.run rules tokens).1.Follows script last ∧
      (splitter.run rules tokens).2.HasParts script := by
  induction tokens generalizing splitter checked with
  | nil => exact ⟨checked, rfl, h, nofun⟩
  | cons token rest ih =>
    obtain ⟨next, hStep, hNext, hFirst⟩ := h.step rules token
    obtain ⟨last, hRun, hLast, hMore⟩ := ih hNext
    rw [run_cons]
    refine ⟨last, ?_, hLast, hFirst.append hMore⟩
    simp only [CheckedSplitter.run, hStep, hRun, Option.bind_eq_bind, Option.bind_some]
    rfl

/-- The end of the script is reached together, too. -/
theorem finish (h : splitter.Follows script checked) :
    checked.finish script = some splitter.finish ∧ splitter.finish.HasParts script := by
  unfold Splitter.finish CheckedSplitter.finish
  rw [h.draft]
  cases checked.start with
  | none => exact ⟨rfl, nofun⟩
  | some start =>
    obtain ⟨cursor, hPiece, hPart, -⟩ := h.locator.sliceFrom start
    simp only [hPiece, Option.bind_eq_bind, Option.bind_some, String.toList_ofList]
    exact ⟨rfl, .ofPiece hPart (Draft.statements_reportLast _ start _)⟩

end Follows

end Splitter

/-- Nothing can go wrong with the look-ups, whatever positions a locator is asked for and whatever
tokens a script is split with: checked step by step they have a result, and it is the one of the
unchecked work. The cursor stands between two characters at any time, and every statement is a part
of the script, not empty and without blank ends. -/
theorem splitTokens_checked (rules : Rules) (script : String) (queries : List Query)
    (tokens : List Token) :
    (∃ cursor, Cursor.start.askAll script queries =
          some ((Locator.ofString script).askAll queries, cursor) ∧
        cursor.offset = ((Locator.ofString script).afterAll queries).spot.offset ∧
        String.Pos.Raw.IsValid script ⟨cursor.offset⟩) ∧
      CheckedSplitter.initial.complete script rules tokens =
        some (reportTokens rules script tokens) ∧
      ∀ statement ∈ (splitTokens rules script tokens).statements,
        Trimmed statement.text.toList ∧ statement.text.toList <:+: script.toList := by
  refine ⟨?lookups, ?work, ?parts⟩
  case lookups =>
    obtain ⟨cursor, hReplies, hCursor⟩ := (Locator.follows_ofString script).askAll queries
    exact ⟨cursor, hReplies, hCursor.spot.offset_eq.symm, hCursor.spot.isValid⟩
  all_goals
    obtain ⟨last, hRun, hLast, hParts⟩ := (Splitter.follows_ofString script).run rules tokens
    obtain ⟨hFinish, hRest⟩ := hLast.finish
  case work =>
    simp only [CheckedSplitter.complete, hRun, hFinish, Option.bind_eq_bind, Option.bind_some]
    rfl
  case parts => exact hParts.append hRest

/-- Tokens that have nothing to do with the script: they go back, stand in column 0, on line 0 and
behind the end. -/
example : (splitTokens Dialect.generic.rules " é; b"
      [⟨"x", .identifier, ⟨1, 0⟩⟩, ⟨";", .terminator, ⟨7, 7⟩⟩, ⟨"y", .literal, ⟨0, 2⟩⟩,
        ⟨";", .terminator, ⟨1, 0⟩⟩, ⟨"z", .operator, ⟨1, 3⟩⟩]).statements =
    #[⟨"é; b", ⟨1, 0⟩, 0, 0, true⟩, ⟨"b", ⟨1, 3⟩, 0, 0, false⟩] := by
  decide +kernel

end SqlScript
