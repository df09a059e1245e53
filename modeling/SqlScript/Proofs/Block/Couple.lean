import SqlScript.Proofs.Block.Feed
import SqlScript.Proofs.Split.Segment

/-!
# Two contexts side by side

With more modifiable objects a keyword opens a block less often, so one would expect that the block
depth is never larger and that a terminator that ends the statement still does. But the two runs do
not stay in step: where the statement ends with more objects only, that run forgets its last
keyword, and the next `IF`, `FOR`, `CASE` or `EACH` can have another effect in it than in the run
that goes on.

The invariant that survives is `Context.Coupled`: the second context has at most as many blocks
open, and either the two have seen the same last keyword, or nothing is open in the second one and
something is in the first. In the second case an effect that differs makes up for at most the block
that the first context is ahead.

## Results

* `Coupled.contextAfter` — the contexts along some tokens stay coupled.
* `Coupled.cuts`         — where the first context ends the statement, the second one does so too.
-/

namespace SqlScript

/-! ## Effects -/

namespace Role

/-- The words that close a block in some places. -/
theorem eq_of_delta_closes {role previous : Role} {afterObject : Bool}
    (h : role.delta previous afterObject = .closes) : role = closer ∨ role = clause := by
  -- The other roles open a block or have no effect.
  cases role with
  | closer => exact .inl rfl
  | clause => exact .inr rfl
  | opener => cases h
  | plain => cases h
  | conditional =>
    dsimp only [delta] at h
    split at h <;> cases h
  | loop =>
    dsimp only [delta] at h
    split at h <;> cases h
  | choice =>
    dsimp only [delta] at h
    split at h <;> cases h

/-- A word that closes a block in some place does not open one in another. -/
theorem delta_ne_opens {role previous : Role} {afterObject : Bool}
    (h : role.delta previous afterObject = .closes) (other : Role) (afterOther : Bool) :
    role.delta other afterOther ≠ .opens := by
  rcases eq_of_delta_closes h with rfl | rfl
  · simp [delta]
  · dsimp only [delta]
    split <;> simp

/-- The name of an object in front of a keyword keeps it from opening a block, and that is all. -/
theorem delta_of_le {afterObject afterMore : Bool} (h : afterObject = true → afterMore = true)
    (role previous : Role) :
    role.delta previous afterMore = role.delta previous afterObject ∨
      role.delta previous afterObject = .opens ∧ role.delta previous afterMore = .neutral := by
  cases role with
  | conditional =>
    -- Only the guard `IF` asks for the object in front of it.
    by_cases hGuard : previous = closer ∨ afterObject = true
    · have hMore : previous = closer ∨ afterMore = true := hGuard.imp_right h
      exact .inl ((if_pos hMore).trans (if_pos hGuard).symm)
    · by_cases hMore : previous = closer ∨ afterMore = true
      · exact .inr ⟨if_neg hGuard, if_pos hMore⟩
      · exact .inl ((if_neg hMore).trans (if_neg hGuard).symm)
  | opener => exact .inl rfl
  | loop => exact .inl rfl
  | choice => exact .inl rfl
  | clause => exact .inl rfl
  | closer => exact .inl rfl
  | plain => exact .inl rfl

end Role

/-- The same effect keeps the order of two depths. -/
theorem Delta.apply_le_apply {first second : Nat} (h : first ≤ second) (delta : Delta) :
    delta.apply first ≤ delta.apply second := by
  cases delta with
  | opens => exact Nat.succ_le_succ h
  | closes => exact Nat.sub_le_sub_right h 1
  | neutral => exact h

theorem Delta.apply_zero_le (delta : Delta) : delta.apply 0 ≤ 1 := by
  cases delta <;> decide

theorem Delta.apply_zero_of_ne_opens {delta : Delta} (h : delta ≠ .opens) :
    delta.apply 0 = 0 := by
  cases delta with
  | opens => exact absurd rfl h
  | closes => rfl
  | neutral => rfl

theorem Delta.le_apply_of_ne_closes {delta : Delta} (h : delta ≠ .closes) (depth : Nat) :
    depth ≤ delta.apply depth := by
  cases delta with
  | opens => exact Nat.le_succ depth
  | closes => exact absurd rfl h
  | neutral => exact Nat.le_refl depth

/-! ## Coupled contexts -/

namespace Context

/-- The second context has at most as many blocks open as the first. Unless it has just been
started and the first one has not, both have seen the same last keyword. -/
structure Coupled (first second : Context) : Prop where
  depth : second.depth ≤ first.depth
  previous : second.previous = first.previous ∨ second.depth = 0 ∧ 0 < first.depth

theorem Coupled.refl (context : Context) : context.Coupled context := ⟨Nat.le_refl _, .inl rfl⟩

section

variable {objects more : ModifiableObjects} {first second : Context}

/-- The effect of a keyword, whose role and predecessor decide. -/
theorem delta_of_keyword (context : Context) {token : Token} (h : token.isKeyword = true) :
    context.delta ⟨.hsqldb, objects⟩ token =
      (Role.ofWord (upper token.text)).delta (Role.ofWord (upper context.previous))
        (objects.contains context.previous) :=
  if_pos h

/-- A token keeps contexts coupled if the second one knows all objects that the first one knows. -/
theorem Coupled.feed (h : first.Coupled second)
    (hMore : ∀ word, objects.contains word = true → more.contains word = true) (token : Token) :
    (first.feed ⟨.hsqldb, objects⟩ token).Coupled (second.feed ⟨.hsqldb, more⟩ token) := by
  cases hKeyword : token.isKeyword with
  | false =>
    rw [(first.feed_of_not_keyword _ token hKeyword).1,
      (second.feed_of_not_keyword _ token hKeyword).1]
    exact h
  | true =>
    have hPrevious : (second.feed ⟨.hsqldb, more⟩ token).previous =
        (first.feed ⟨.hsqldb, objects⟩ token).previous := by
      rw [previous_feed, previous_feed, if_pos hKeyword, if_pos hKeyword]
    -- From here on the two have seen the same last keyword, whatever they had seen before.
    refine ⟨?_, .inl hPrevious⟩
    have hDepth := h.depth
    rw [depth_feed, depth_feed, delta_of_keyword first hKeyword, delta_of_keyword second hKeyword]
    rcases h.previous with hSame | ⟨hClosed, hOpen⟩
    · -- After the same keyword the effects differ only where the first context opens a block.
      rw [hSame]
      rcases Role.delta_of_le (hMore first.previous) (Role.ofWord (upper token.text))
        (Role.ofWord (upper first.previous)) with hEqual | ⟨hOpens, hNeutral⟩
      · rw [hEqual]
        exact Delta.apply_le_apply hDepth _
      · rw [hOpens, hNeutral]
        show second.depth ≤ first.depth + 1
        omega
    · -- The first context is ahead by a block, which it keeps unless the keyword closes one.
      rw [hClosed]
      by_cases hCloses : (Role.ofWord (upper token.text)).delta
          (Role.ofWord (upper first.previous)) (objects.contains first.previous) = .closes
      · rw [Delta.apply_zero_of_ne_opens (Role.delta_ne_opens hCloses _ _)]
        exact Nat.zero_le _
      · have hKept := Delta.le_apply_of_ne_closes hCloses first.depth
        have hOne : 1 ≤ first.depth := hOpen
        exact Nat.le_trans (Delta.apply_zero_le _) (Nat.le_trans hOne hKept)

/-- The context before the next token, a new one after a cut. -/
def next (rules : Rules) (context : Context) (token : Token) : Context :=
  if context.cuts token then Context.empty else context.feed rules token

/-- Where the first context ends the statement, the second one does so too. -/
theorem Coupled.cuts (h : first.Coupled second) {token : Token} (hCuts : first.cuts token) :
    second.cuts token := by
  obtain ⟨hTerminator, hBoundary⟩ := hCuts
  have hDepth := h.depth
  have hZero : first.depth = 0 := of_decide_eq_true hBoundary
  exact ⟨hTerminator, decide_eq_true (show second.depth = 0 by omega)⟩

/-- The contexts stay coupled over a token, whichever of them it ends the statement in. -/
theorem Coupled.next (h : first.Coupled second)
    (hMore : ∀ word, objects.contains word = true → more.contains word = true) (token : Token) :
    (first.next ⟨.hsqldb, objects⟩ token).Coupled (second.next ⟨.hsqldb, more⟩ token) := by
  have hFeed := h.feed hMore token
  unfold Context.next
  by_cases hSecond : second.cuts token
  · rw [if_pos hSecond]
    by_cases hFirst : first.cuts token
    · rw [if_pos hFirst]
      exact Coupled.refl _
    · -- Only the second statement ends. The first one goes on since a block is open in it.
      rw [if_neg hFirst]
      have hOpen : first.depth ≠ 0 := fun hZero => hFirst ⟨hSecond.1, decide_eq_true hZero⟩
      have hKeyword := Token.isKeyword_of_isTerminator hSecond.1
      rw [(first.feed_of_not_keyword _ token hKeyword).1]
      exact ⟨Nat.zero_le _, .inr ⟨rfl, by omega⟩⟩
  · rw [if_neg hSecond, if_neg (mt h.cuts hSecond)]
    exact hFeed

/-- The contexts along some tokens stay coupled. -/
theorem Coupled.contextAfter (h : first.Coupled second)
    (hMore : ∀ word, objects.contains word = true → more.contains word = true)
    (tokens : List Token) :
    (contextAfter ⟨.hsqldb, objects⟩ first tokens).Coupled
      (contextAfter ⟨.hsqldb, more⟩ second tokens) := by
  induction tokens generalizing first second with
  | nil => exact h
  | cons token rest ih => exact ih (h.next hMore token)

end

end Context

end SqlScript
