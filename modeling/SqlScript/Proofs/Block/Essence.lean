import SqlScript.Proofs.Split.Segment

/-!
# What a context sees of a script

Of the tokens of a statement a context only takes in the keywords, and only a terminator can end
the statement. The `essences` of some tokens are these two sorts, without their places. Two token
sequences with the same essences therefore lead through contexts that differ at most in the places
of the problems found (`Context.Alike`), and they are cut alike.

## Results

* `Alike.feedAll_essences` — the essences of tokens lead to a context alike.
* `Alike.uncut_essences`   — the essences of tokens are cut if and only if the tokens are.
* `mem_pending`            — the problems of a context are closing keywords of the statement.
-/

namespace SqlScript

/-! ## Essences -/

/-- The token without its place, if a context takes notice of it. -/
def Token.essence (token : Token) : Option Token :=
  if token.isKeyword || token.isTerminator then some { token with start := Position.start }
  else none

/-- What contexts see of some tokens. -/
def essences (tokens : List Token) : List Token := tokens.filterMap Token.essence

@[simp] theorem essences_append (front back : List Token) :
    essences (front ++ back) = essences front ++ essences back := List.filterMap_append

theorem essences_cons (token : Token) (rest : List Token) :
    essences (token :: rest) = token.essence.toList ++ essences rest := by
  unfold essences
  rw [List.filterMap_cons]
  cases token.essence <;> rfl

/-- Blanks and comments have no essence. -/
theorem Token.essence_of_isTrivia {token : Token} (h : token.isTrivia = true) :
    token.essence = none := by
  have hKind : token.kind = .whitespace ∨ token.kind = .comment := by
    simpa [isTrivia] using h
  rcases hKind with hKind | hKind <;> simp [essence, isKeyword, isTerminator, hKind]

/-- So contexts see nothing of any number of them. -/
theorem essences_of_isTrivia {tokens : List Token} (h : ∀ token ∈ tokens, token.isTrivia = true) :
    essences tokens = [] :=
  List.filterMap_eq_nil_iff.mpr fun token hToken => Token.essence_of_isTrivia (h token hToken)

namespace Context

/-! ## Contexts that differ in places -/

/-- The contexts are the same but for the places of the problems. -/
structure Alike (first second : Context) : Prop where
  depth : first.depth = second.depth
  maxDepth : first.maxDepth = second.maxDepth
  keywords : first.keywords = second.keywords
  pending : first.pending.size = second.pending.size

theorem Alike.refl (context : Context) : context.Alike context := ⟨rfl, rfl, rfl, rfl⟩

variable {rules : Rules} {first second : Context}

/-- A token at another place does the same to a context. -/
theorem Alike.feed (h : first.Alike second) (token : Token) (place : Position) :
    (first.feed rules token).Alike (second.feed rules { token with start := place }) := by
  have hSame : token.isKeyword = ({ token with start := place } : Token).isKeyword := rfl
  -- The effect is that of the text and the keyword before it, and the places have no part in it.
  have hDelta : first.delta rules token = second.delta rules { token with start := place } := by
    unfold delta previous
    rw [← hSame, h.keywords]
  unfold Context.feed
  rw [← hSame, hDelta]
  split
  · have hUnderflows : first.underflows (second.delta rules { token with start := place }) =
        second.underflows (second.delta rules { token with start := place }) := by
      unfold underflows
      rw [h.depth]
    refine ⟨?_, ?_, ?_, ?_⟩
    · simp only [record, h.depth]
    · simp only [record, h.depth, h.maxDepth]
    · simp only [record, h.depth, h.keywords]
    · simp only [record, hUnderflows]
      split
      · simp [h.pending]
      · exact h.pending
  · exact h

/-- A terminator at another place ends the statement too. -/
theorem Alike.cuts (h : first.Alike second) (token : Token) (place : Position) :
    first.cuts token ↔ second.cuts { token with start := place } := by
  unfold Context.cuts atBoundary
  rw [h.depth]
  rfl

/-- A token without essence leaves a context alone and does not end the statement. -/
theorem of_essence_eq_none {token : Token} (h : token.essence = none) (rules : Rules)
    (context : Context) : context.feed rules token = context ∧ ¬ context.cuts token := by
  unfold Token.essence at h
  split at h
  · cases h
  · next hNot =>
    rw [Bool.or_eq_true, not_or] at hNot
    exact ⟨if_neg hNot.1, fun hCuts => hNot.2 hCuts.1⟩

/-- A token with an essence is seen as its essence. -/
theorem essence_eq_some {token essence : Token} (h : token.essence = some essence) :
    essence = { token with start := Position.start } := by
  unfold Token.essence at h
  split at h
  · exact (Option.some.inj h).symm
  · cases h

/-! ## Along some tokens -/

/-- A context follows the essences of the tokens. -/
theorem Alike.feedAll_essences (h : first.Alike second) (tokens : List Token) :
    (first.feedAll rules tokens).Alike (second.feedAll rules (essences tokens)) := by
  induction tokens generalizing first second with
  | nil => exact h
  | cons token rest ih =>
    rw [essences_cons, feedAll_cons]
    cases hEssence : token.essence with
    | none =>
      rw [(of_essence_eq_none hEssence rules first).1]
      exact ih h
    | some essence =>
      rw [essence_eq_some hEssence]
      exact ih (h.feed token Position.start)

/-- Only the essences of tokens can end a statement. -/
theorem Alike.uncut_essences (h : first.Alike second) (tokens : List Token) :
    first.Uncut rules tokens ↔ second.Uncut rules (essences tokens) := by
  induction tokens generalizing first second with
  | nil => exact Iff.rfl
  | cons token rest ih =>
    rw [essences_cons, Uncut]
    cases hEssence : token.essence with
    | none =>
      obtain ⟨hFeed, hCuts⟩ := of_essence_eq_none hEssence rules first
      rw [hFeed, ih h]
      exact and_iff_right hCuts
    | some essence =>
      rw [essence_eq_some hEssence]
      exact and_congr (not_congr (h.cuts token Position.start)) (ih (h.feed token Position.start))

/-! ## Problems -/

/-- The problems found along some tokens are closing keywords among them. -/
theorem mem_pending {context : Context} {tokens : List Token} {problem : Diagnostic}
    (h : problem ∈ (context.feedAll rules tokens).pending) :
    problem ∈ context.pending ∨
      ∃ token ∈ tokens, token.isKeyword = true ∧ problem = .unmatchedEnd token.start := by
  induction tokens generalizing context with
  | nil => exact .inl h
  | cons token rest ih =>
    -- By induction a problem is pending behind the first token or comes from a later one.
    obtain hStep | ⟨other, hOther, hProblem⟩ := ih h
    · unfold feed at hStep
      split at hStep
      · next hKeyword =>
        simp only [record] at hStep
        split at hStep
        · rcases Array.mem_push.mp hStep with hOld | rfl
          · exact .inl hOld
          · exact .inr ⟨token, List.mem_cons_self, hKeyword, rfl⟩
        · exact .inl hStep
      · exact .inl hStep
    · exact .inr ⟨other, List.mem_cons_of_mem _ hOther, hProblem⟩

end Context

end SqlScript
