import SqlScript.Proofs.Block.Couple
import SqlScript.Proofs.Split.Excerpt

/-!
# Scripts without blocks

In the generic dialect no keyword has an effect on the block depth. The context of a statement
stays `Flat`: no block is open in it or ever was, and there is nothing to report. So every
terminator ends a statement, and the report on a script has no problems, whatever the tokens are
and wherever they say they start.

## Results

* `Context.Flat.cuts_iff` — a flat context ends the statement at every terminator.
* `flat_splitTokens`      — no problems are found, and no statement has blocks.
-/

namespace SqlScript

/-! ## Flat contexts -/

namespace Context

/-- No block is open or was open, and there are no problems. -/
structure Flat (context : Context) : Prop where
  depth : context.depth = 0
  maxDepth : context.maxDepth = 0
  pending : context.pending = #[]

theorem flat_empty : empty.Flat := ⟨rfl, rfl, rfl⟩

/-- In the generic dialect no token has an effect. -/
theorem delta_generic (objects : ModifiableObjects) (context : Context) (token : Token) :
    context.delta ⟨.generic, objects⟩ token = .neutral := by
  unfold delta
  split <;> rfl

variable {objects : ModifiableObjects} {context : Context}

/-- In the generic dialect a token opens nothing, closes nothing and is no stray end. -/
theorem Flat.feed (h : context.Flat) (token : Token) :
    (context.feed ⟨.generic, objects⟩ token).Flat where
  depth := by
    rw [depth_feed, delta_generic]
    exact h.depth
  maxDepth := by
    have hBelow : context.depth ≤ context.maxDepth := by
      rw [h.depth]
      exact Nat.zero_le _
    rw [context.maxDepth_feed _ token hBelow, delta_generic, h.maxDepth]
    exact (Nat.zero_max _).trans h.depth
  pending := by
    have hPending := context.pending_feed ⟨.generic, objects⟩ token
    rw [delta_generic, if_neg (by simp), List.append_nil, h.pending] at hPending
    exact Array.toList_inj.mp hPending

/-- A context stays flat whether it is fed or begun anew. -/
theorem Flat.next (h : context.Flat) (token : Token) :
    (context.next ⟨.generic, objects⟩ token).Flat := by
  unfold Context.next
  split
  · exact flat_empty
  · exact h.feed token

/-- However many tokens there were, the context after them is flat. -/
theorem Flat.contextAfter (h : context.Flat) (tokens : List Token) :
    (contextAfter ⟨.generic, objects⟩ context tokens).Flat := by
  induction tokens generalizing context with
  | nil => exact h
  | cons token rest ih => exact ih (h.next token)

/-- In a flat context the statement ends at every terminator. -/
theorem Flat.cuts_iff (h : context.Flat) (token : Token) :
    context.cuts token ↔ token.isTerminator = true :=
  and_iff_left (decide_eq_true h.depth)

end Context

/-! ## Flat reports -/

/-- There are no problems, and no statement has blocks. -/
structure Report.Flat (report : Report) : Prop where
  diagnostics : report.diagnostics = #[]
  maxDepth : ∀ statement ∈ report.statements, statement.maxDepth = 0

/-- A report in two flat parts is flat. -/
theorem Report.Flat.append {first second : Report} (h : first.Flat) (h' : second.Flat) :
    (first ++ second).Flat where
  diagnostics := by rw [append_def, h.diagnostics, h'.diagnostics, Array.append_empty]
  maxDepth := by
    intro statement hMem
    rw [append_def] at hMem
    exact (Array.mem_append.mp hMem).elim (h.maxDepth statement) (h'.maxDepth statement)

/-- A statement that is made in a flat context has no blocks. -/
theorem Context.Flat.maxDepth_of_mem_ofPiece {context : Context} (h : context.Flat)
    {piece : List Char} {start : Position} {terminated : Bool} {statement : Statement}
    (hMem : statement ∈ Statement.ofPiece piece start context terminated) :
    statement.maxDepth = 0 := by
  rw [Statement.eq_of_mem_ofPiece hMem]
  exact h.maxDepth

namespace Splitter

variable {splitter : Splitter}

/-- One token keeps the context flat, and what it makes the splitter report is flat too. -/
theorem flat_step (objects : ModifiableObjects) (h : splitter.context.Flat) (token : Token) :
    (splitter.step ⟨.generic, objects⟩ token).1.context.Flat ∧
      (splitter.step ⟨.generic, objects⟩ token).2.Flat := by
  by_cases hCuts : splitter.context.cuts token
  · rw [step_of_cuts hCuts, toDraft_cut]
    refine ⟨Context.flat_empty, ?_, fun statement hStatement => ?_⟩
    · rw [diagnostics_cut, h.pending]
    · obtain ⟨start, piece, -, hPiece⟩ := exists_piece_of_mem_cut hStatement
      exact h.maxDepth_of_mem_ofPiece hPiece
  · rw [step_of_not_cuts hCuts]
    exact ⟨h.feed token, rfl, nofun⟩

/-- By induction over the tokens, so is everything that a run reports. -/
theorem flat_run (objects : ModifiableObjects) (h : splitter.context.Flat) (tokens : List Token) :
    (splitter.run ⟨.generic, objects⟩ tokens).1.context.Flat ∧
      (splitter.run ⟨.generic, objects⟩ tokens).2.Flat := by
  induction tokens generalizing splitter with
  | nil => exact ⟨h, rfl, nofun⟩
  | cons token rest ih =>
    obtain ⟨hNext, hFirst⟩ := flat_step objects h token
    obtain ⟨hContext, hRest⟩ := ih hNext
    rw [run_cons]
    exact ⟨hContext, hFirst.append hRest⟩

/-- What is left at the end is reported without a problem, as no block can be open. -/
theorem flat_finish (h : splitter.context.Flat) : splitter.finish.Flat where
  diagnostics := by
    rw [diagnostics_finish]
    split
    · exact h.pending
    · exact (if_pos h.depth).trans h.pending
  maxDepth := by
    intro statement hStatement
    obtain ⟨start, piece, -, hPiece⟩ := exists_piece_of_mem_finish hStatement
    exact h.maxDepth_of_mem_ofPiece hPiece

end Splitter

/-- In the generic dialect no problems are found, and no statement has blocks. -/
theorem flat_splitTokens (objects : ModifiableObjects) (script : String) (tokens : List Token) :
    (splitTokens ⟨.generic, objects⟩ script tokens).diagnostics = #[] ∧
      ∀ statement ∈ (splitTokens ⟨.generic, objects⟩ script tokens).statements,
        statement.maxDepth = 0 := by
  have hStart : (Splitter.ofString script).context.Flat := Context.flat_empty
  obtain ⟨hContext, hReport⟩ := Splitter.flat_run objects hStart tokens
  have hFlat : (reportTokens ⟨.generic, objects⟩ script tokens).Flat :=
    hReport.append (Splitter.flat_finish hContext)
  exact ⟨hFlat.diagnostics, hFlat.maxDepth⟩

end SqlScript
