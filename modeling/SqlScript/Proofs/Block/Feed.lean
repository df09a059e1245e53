import SqlScript.Block.Context
import SqlScript.Proofs.Split.Segment

/-!
# What a token does to a context

Only keywords change a context. For each part of a context this module says what a token makes of
it, in one form for keywords and other tokens alike, so that arguments about runs of tokens need
not look into `Context.feed`.

## Results

* `Context.feed_of_not_keyword`, `Context.feedAll_of_not_keyword` — other tokens than keywords
  change nothing.
* `Context.depth_feed`, `Context.maxDepth_feed`, `Context.trace_feed`, `Context.pending_feed` and
  `Context.previous_feed` — the parts of the context after a token.
-/

namespace SqlScript

namespace Token

variable {token : Token}

/-- Blanks and comments are no keywords. -/
theorem isKeyword_of_isTrivia (h : token.isTrivia = true) : token.isKeyword = false := by
  have hKind : token.kind = .whitespace ∨ token.kind = .comment := by
    simpa [isTrivia] using h
  rcases hKind with hKind | hKind <;> simp [isKeyword, hKind]

/-- Nor are they terminators. -/
theorem isTerminator_of_isTrivia (h : token.isTrivia = true) : token.isTerminator = false := by
  have hKind : token.kind = .whitespace ∨ token.kind = .comment := by
    simpa [isTrivia] using h
  rcases hKind with hKind | hKind <;> simp [isTerminator, hKind]

/-- Terminators are no keywords. -/
theorem isKeyword_of_isTerminator (h : token.isTerminator = true) : token.isKeyword = false := by
  have hKind : token.kind = .terminator := by
    simpa [isTerminator] using h
  simp [isKeyword, hKind]

end Token

namespace Context

variable (rules : Rules) (context : Context) (token : Token)

/-- A token other than a keyword has no effect. -/
theorem feed_of_not_keyword (h : token.isKeyword = false) :
    context.feed rules token = context ∧ context.delta rules token = .neutral :=
  ⟨if_neg (by simp [h]), if_neg (by simp [h])⟩

/-- Nor have any number of them. -/
theorem feedAll_of_not_keyword {tokens : List Token}
    (h : ∀ token ∈ tokens, token.isKeyword = false) : context.feedAll rules tokens = context := by
  induction tokens with
  | nil => rfl
  | cons token rest ih =>
    have hToken := (context.feed_of_not_keyword rules token (h token List.mem_cons_self)).1
    rw [feedAll_cons, hToken]
    exact ih fun later hLater => h later (List.mem_cons_of_mem _ hLater)

theorem feed_of_keyword (h : token.isKeyword = true) :
    context.feed rules token =
      context.record (upper token.text) (context.delta rules token) token.start :=
  if_pos h

/-- The depth changes by the effect of the token. -/
theorem depth_feed :
    (context.feed rules token).depth = (context.delta rules token).apply context.depth := by
  cases hKeyword : token.isKeyword with
  | false =>
    obtain ⟨hFeed, hDelta⟩ := context.feed_of_not_keyword rules token hKeyword
    rw [hFeed, hDelta]
    rfl
  | true =>
    rw [context.feed_of_keyword rules token hKeyword]
    rfl

/-- The largest depth takes the depth behind the token in, if it was not below the depth before. -/
theorem maxDepth_feed (h : context.depth ≤ context.maxDepth) :
    (context.feed rules token).maxDepth =
      max context.maxDepth ((context.delta rules token).apply context.depth) := by
  cases hKeyword : token.isKeyword with
  | false =>
    obtain ⟨hFeed, hDelta⟩ := context.feed_of_not_keyword rules token hKeyword
    rw [hFeed, hDelta]
    exact (Nat.max_eq_left h).symm
  | true =>
    rw [context.feed_of_keyword rules token hKeyword]
    rfl

/-- A keyword adds the depth behind it to the trace, and no other token adds anything. -/
theorem trace_feed :
    (context.feed rules token).trace.toList = context.trace.toList ++
      if token.isKeyword then [(context.delta rules token).apply context.depth] else [] := by
  cases hKeyword : token.isKeyword with
  | false =>
    obtain ⟨hFeed, -⟩ := context.feed_of_not_keyword rules token hKeyword
    rw [hFeed]
    simp
  | true =>
    rw [context.feed_of_keyword rules token hKeyword]
    simp [trace, record]

/-- A token adds a problem if it closes a block and none is open. -/
theorem pending_feed :
    (context.feed rules token).pending.toList = context.pending.toList ++
      if context.delta rules token = .closes ∧ context.depth = 0 then
        [.unmatchedEnd token.start]
      else [] := by
  cases hKeyword : token.isKeyword with
  | false =>
    obtain ⟨hFeed, hDelta⟩ := context.feed_of_not_keyword rules token hKeyword
    rw [hFeed, hDelta, if_neg (by simp), List.append_nil]
  | true =>
    rw [context.feed_of_keyword rules token hKeyword]
    simp only [record, underflows]
    by_cases hUnder : context.delta rules token = .closes ∧ context.depth = 0
    · simp [hUnder]
    · simp [hUnder]

/-- A keyword is the previous one for what comes after it. -/
theorem previous_feed :
    (context.feed rules token).previous =
      if token.isKeyword then upper token.text else context.previous := by
  cases hKeyword : token.isKeyword with
  | false => rw [(context.feed_of_not_keyword rules token hKeyword).1, if_neg (by simp)]
  | true =>
    rw [context.feed_of_keyword rules token hKeyword]
    simp [previous, record]

end Context

end SqlScript
