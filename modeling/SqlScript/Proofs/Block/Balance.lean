import SqlScript.Proofs.Block.Feed
import SqlScript.Proofs.Lexeme.Letters
import SqlScript.Proofs.Split.Segment

/-!
# Balanced blocks

The block depth is counted with a look at one keyword back and without a stack. For keywords that
are nested as blocks, this module shows that the count is nevertheless the number of blocks around
a place.

`Balanced` says what is nested: blocks with their ends, guards after the name of a schema object,
and clauses that take an open `FOR` back. It comes with the level after each keyword, which is read
off the nesting and not counted. `Counts` is the run of the counter over the keywords alone, and the
proof goes in two steps:

1. over balanced keywords the counter goes through the levels, whatever it starts from and whatever
   comes behind (`Balanced.counts_append`, by induction on the nesting);
2. a context that is fed tokens with these keywords follows the counter, since the other tokens do
   not change it (`Counts.feedAll`, by induction on the tokens).

## Results

* `balanced_feedAll` — balanced keywords bring a context back to its depth without a problem, and
  in between its depth is the level above the one at the start.
-/

namespace SqlScript

/-! ## Effects of words -/

/-- The effect of a keyword in upper case, after another one in upper case. -/
def wordDelta (objects : ModifiableObjects) (word previous : String) : Delta :=
  (Role.ofWord word).delta (Role.ofWord previous) (objects.contains previous)

/-- Letter case makes no difference to the effect of a keyword. -/
theorem delta_eq_wordDelta (objects : ModifiableObjects) (keyword previous : String) :
    (⟨.hsqldb, objects⟩ : Rules).delta keyword previous =
      wordDelta objects (upper keyword) (upper previous) := by
  have hObject : objects.contains (upper previous) = objects.contains previous := by
    unfold ModifiableObjects.contains
    rw [upper_upper]
  unfold wordDelta
  rw [hObject]
  rfl

/-! ## Balanced keywords -/

/-- A block that the first word opens is closed by `END` and then perhaps the second word. -/
inductive BlockForm : String → Option String → Prop
  | procedure : BlockForm "BEGIN" none
  | conditional : BlockForm "IF" (some "IF")
  | loop : BlockForm "FOR" (some "FOR")
  | choice : BlockForm "CASE" none
  | namedChoice : BlockForm "CASE" (some "CASE")

/-- The words that close a block. -/
def closing (name : Option String) : List String := "END" :: name.toList

/-- The words are balanced after another word, and the numbers are the levels after each of them.

A loop cannot have a body that starts with `EACH` or `SQLEXCEPTION`: directly after `FOR` these are
no plain words. -/
inductive Balanced (objects : ModifiableObjects) : String → List String → List Nat → Prop
  | nil {previous : String} : Balanced objects previous [] []
  | plain {previous word : String} {rest : List String} {levels : List Nat}
      (hWord : word ∉ ["BEGIN", "IF", "FOR", "CASE", "END"])
      (hClause : previous = "FOR" → word ∉ ["EACH", "SQLEXCEPTION"])
      (hRest : Balanced objects word rest levels) :
      Balanced objects previous (word :: rest) (0 :: levels)
  | guard {previous : String} {rest : List String} {levels : List Nat}
      (hObject : objects.contains previous = true)
      (hRest : Balanced objects "IF" rest levels) :
      Balanced objects previous ("IF" :: rest) (0 :: levels)
  | clause {previous word : String} {rest : List String} {levels : List Nat}
      (hEnd : previous ≠ "END") (hWord : word ∈ ["EACH", "SQLEXCEPTION"])
      (hRest : Balanced objects word rest levels) :
      Balanced objects previous ("FOR" :: word :: rest) (1 :: 0 :: levels)
  | block {previous opener : String} {name : Option String} {body rest : List String}
      {inner levels : List Nat} (hForm : BlockForm opener name)
      (hEnd : opener ≠ "BEGIN" → previous ≠ "END")
      (hObject : opener = "IF" → objects.contains previous = false)
      (hBody : Balanced objects opener body inner)
      (hRest : Balanced objects (name.getD "END") rest levels) :
      Balanced objects previous (opener :: (body ++ (closing name ++ rest)))
        (1 :: (inner.map (· + 1) ++ ((closing name).map (fun _ => 0) ++ levels)))

/-! ## The counter -/

/-- From a depth and a previous word on, the counter shows these depths after the words, and it
never closes a block where none is open. -/
inductive Counts (objects : ModifiableObjects) : Nat → String → List String → List Nat → Prop
  | nil {depth : Nat} {previous : String} : Counts objects depth previous [] []
  | cons {depth : Nat} {previous word : String} {rest : List String} {depths : List Nat}
      (hOpen : wordDelta objects word previous = .closes → 0 < depth)
      (hRest : Counts objects ((wordDelta objects word previous).apply depth) word rest depths) :
      Counts objects depth previous (word :: rest)
        ((wordDelta objects word previous).apply depth :: depths)

namespace Counts

variable {objects : ModifiableObjects} {depth : Nat} {previous word : String}
  {rest : List String} {depths : List Nat}

theorem neutral (h : wordDelta objects word previous = .neutral)
    (hRest : Counts objects depth word rest depths) :
    Counts objects depth previous (word :: rest) (depth :: depths) := by
  have hCons : Counts objects depth previous (word :: rest) _ :=
    .cons (by rw [h]; nofun) (by rw [h]; exact hRest)
  rw [h] at hCons
  exact hCons

theorem opens (h : wordDelta objects word previous = .opens)
    (hRest : Counts objects (depth + 1) word rest depths) :
    Counts objects depth previous (word :: rest) ((depth + 1) :: depths) := by
  have hCons : Counts objects depth previous (word :: rest) _ :=
    .cons (by rw [h]; nofun) (by rw [h]; exact hRest)
  rw [h] at hCons
  exact hCons

theorem closes (h : wordDelta objects word previous = .closes)
    (hRest : Counts objects depth word rest depths) :
    Counts objects (depth + 1) previous (word :: rest) (depth :: depths) := by
  have hCons : Counts objects (depth + 1) previous (word :: rest) _ :=
    .cons (fun _ => Nat.succ_pos depth) (by rw [h]; exact hRest)
  rw [h] at hCons
  exact hCons

end Counts

/-! ### Effects of single words -/

section Effects

variable {objects : ModifiableObjects} {previous word : String}

theorem wordDelta_plain (hWord : word ∉ ["BEGIN", "IF", "FOR", "CASE", "END"])
    (hClause : previous = "FOR" → word ∉ ["EACH", "SQLEXCEPTION"]) :
    wordDelta objects word previous = .neutral := by
  simp only [List.mem_cons, List.not_mem_nil, or_false, not_or] at hWord hClause
  obtain ⟨hBegin, hIf, hFor, hCase, hEnd⟩ := hWord
  unfold wordDelta
  -- The words of a clause are the only others with a role, and it needs a FOR before them.
  by_cases hPair : word = "EACH" ∨ word = "SQLEXCEPTION"
  · have hLoop : Role.ofWord previous ≠ .loop := by
      intro hLoop
      have hMem : previous ∈ Role.loop.words := (Role.ofWord_eq_iff (by decide)).mp hLoop
      have hNot := hClause (List.mem_singleton.mp hMem)
      exact hPair.elim hNot.1 hNot.2
    have hRole : Role.ofWord word = .clause := by
      simp only [Role.ofWord, hBegin, hIf, hFor, hCase, if_false, if_pos hPair]
    rw [hRole]
    exact if_neg hLoop
  · have hRole : Role.ofWord word = .plain := by
      simp only [Role.ofWord, hBegin, hIf, hFor, hCase, hEnd, if_false, if_neg hPair]
    rw [hRole]
    rfl

/-- Behind the name of a modifiable object `IF` is a guard and no block. -/
theorem wordDelta_guard (h : objects.contains previous = true) :
    wordDelta objects "IF" previous = .neutral :=
  if_pos (.inr h)

/-- Directly behind `FOR` these words take back what it has opened. -/
theorem wordDelta_clause (h : word ∈ ["EACH", "SQLEXCEPTION"]) :
    wordDelta objects word "FOR" = .closes := by
  simp only [List.mem_cons, List.not_mem_nil, or_false] at h
  rcases h with rfl | rfl <;> rfl

/-- A word that opens a block does so unless it names the block that was closed, or guards an
object. -/
theorem wordDelta_opener {name : Option String} (hForm : BlockForm word name)
    (hEnd : word ≠ "BEGIN" → previous ≠ "END")
    (hObject : word = "IF" → objects.contains previous = false) :
    wordDelta objects word previous = .opens := by
  have hCloser : word ≠ "BEGIN" → Role.ofWord previous ≠ .closer :=
    fun hBegin hCloser => hEnd hBegin (Role.ofWord_eq_closer_iff.mp hCloser)
  cases hForm with
  | procedure => rfl
  | conditional =>
    have hNot := hObject rfl
    exact if_neg (by simp [hCloser (by decide), hNot])
  | loop => exact if_neg (hCloser (by decide))
  | choice => exact if_neg (hCloser (by decide))
  | namedChoice => exact if_neg (hCloser (by decide))

/-- Behind `END` the name of the block has no effect. -/
theorem wordDelta_name {opener : String} (hForm : BlockForm opener (some word)) :
    wordDelta objects word "END" = .neutral := by
  cases hForm <;> rfl

end Effects

/-! ### Nested words -/

/-- At the end of a block the counter goes down by one, whatever comes last inside, and the name of
the block leaves it there. -/
theorem Counts.closing {objects : ModifiableObjects} {depth : Nat} {opener previous : String}
    {name : Option String} (hForm : BlockForm opener name) {rest : List String}
    {depths : List Nat} (hRest : Counts objects depth (name.getD "END") rest depths) :
    Counts objects (depth + 1) previous (closing name ++ rest)
      ((SqlScript.closing name).map (fun _ => depth) ++ depths) := by
  have hEnd : wordDelta objects "END" previous = .closes := rfl
  cases name with
  | none => exact hRest.closes hEnd
  | some word => exact (hRest.neutral (wordDelta_name hForm)).closes hEnd

/-- Over balanced words the counter goes through the levels. What comes behind them may count on
the depth being the same again, but not on the last word. -/
theorem Balanced.counts_append {objects : ModifiableObjects} {previous : String}
    {words : List String} {levels : List Nat} (h : Balanced objects previous words levels)
    (depth : Nat) {behind : List String} {depths : List Nat}
    (hBehind : ∀ last, Counts objects depth last behind depths) :
    Counts objects depth previous (words ++ behind) (levels.map (depth + ·) ++ depths) := by
  induction h generalizing depth behind depths with
  | nil => exact hBehind _
  | plain hWord hClause hRest ih =>
    exact (ih depth hBehind).neutral (wordDelta_plain hWord hClause)
  | guard hObject hRest ih => exact (ih depth hBehind).neutral (wordDelta_guard hObject)
  | clause hEnd hWord hRest ih =>
    -- The clause takes back the block that its FOR has opened.
    have hTaken := (ih depth hBehind).closes (wordDelta_clause hWord)
    exact hTaken.opens (wordDelta_opener .loop (fun _ => hEnd) nofun)
  | @block previous opener name body rest inner levels hForm hEnd hObject hBody hRest ihBody
      ihRest =>
    -- Inside the block the counter is one higher; END brings it back, whatever precedes it.
    have hInner := ihBody (depth + 1) fun last => (ihRest depth hBehind).closing hForm
    have hAll := hInner.opens (wordDelta_opener hForm hEnd hObject)
    have hLevels : (inner.map (· + 1)).map (depth + ·) = inner.map (depth + 1 + ·) := by
      simp only [List.map_map]
      refine List.map_congr_left fun level _ => ?_
      show depth + (level + 1) = depth + 1 + level
      omega
    simpa [hLevels, Function.comp_def] using hAll

/-! ## Contexts -/

/-- The keywords among some tokens, in upper case. -/
def keywordsOf (tokens : List Token) : List String :=
  (tokens.filter Token.isKeyword).map fun token => upper token.text

theorem keywordsOf_cons (token : Token) (rest : List Token) :
    keywordsOf (token :: rest) =
      if token.isKeyword then upper token.text :: keywordsOf rest else keywordsOf rest := by
  unfold keywordsOf
  cases hKeyword : token.isKeyword <;> simp [hKeyword]

/-- A context follows the counter: its depth is the one that the counter shows, and no problem is
found. -/
structure Follows (rules : Rules) (context : Context) (tokens : List Token) (depths : List Nat) :
    Prop where
  trace : (context.feedAll rules tokens).trace = context.trace ++ depths.toArray
  pending : (context.feedAll rules tokens).pending = context.pending
  maxDepth : (context.feedAll rules tokens).maxDepth = depths.foldl max context.maxDepth
  depth : ∀ front back, tokens = front ++ back →
    (context.depth :: depths)[(keywordsOf front).length]? =
      some (context.feedAll rules front).depth

/-- Tokens other than keywords do not change a context. -/
theorem Follows.skip {rules : Rules} {context : Context} {token : Token} {rest : List Token}
    {depths : List Nat} (hToken : token.isKeyword = false)
    (h : Follows rules context rest depths) : Follows rules context (token :: rest) depths := by
  have hSame := (context.feed_of_not_keyword rules token hToken).1
  have hAll : context.feedAll rules (token :: rest) = context.feedAll rules rest := by
    rw [Context.feedAll_cons, hSame]
  refine ⟨by rw [hAll, h.trace], by rw [hAll, h.pending], by rw [hAll, h.maxDepth], ?_⟩
  intro front back hFront
  -- The token is no keyword, so the parts of the list have the same keywords without it.
  cases front with
  | nil => rfl
  | cons first front =>
    obtain ⟨rfl, hBack⟩ := List.cons.inj hFront
    rw [keywordsOf_cons, hToken, if_neg (by decide), Context.feedAll_cons, hSame]
    exact h.depth front back hBack

/-- A keyword that closes no block where none is open only moves the counter. -/
theorem feed_of_isKeyword (objects : ModifiableObjects) (context : Context) {token : Token}
    (h : token.isKeyword = true) {delta : Delta}
    (hDelta : wordDelta objects (upper token.text) (upper context.previous) = delta)
    (hOpen : delta = .closes → 0 < context.depth) :
    context.feed ⟨.hsqldb, objects⟩ token =
      { depth := delta.apply context.depth
        maxDepth := max context.maxDepth (delta.apply context.depth)
        keywords := context.keywords.push ⟨upper token.text, delta.apply context.depth⟩
        pending := context.pending } := by
  have hEffect : context.delta ⟨.hsqldb, objects⟩ token = delta := by
    unfold Context.delta
    rw [if_pos h, delta_eq_wordDelta, hDelta]
  -- The word closes nothing that is not open, so it adds no problem.
  have hUnderflow : context.underflows delta = false := by
    unfold Context.underflows
    rw [decide_eq_false_iff_not]
    rintro ⟨hCloses, hZero⟩
    have hPositive := hOpen hCloses
    omega
  unfold Context.feed Context.record
  rw [if_pos h, hEffect, hUnderflow]
  rfl

theorem Follows.cons {objects : ModifiableObjects} {context : Context} {token : Token}
    {rest : List Token} {depths : List Nat} (hToken : token.isKeyword = true) {delta : Delta}
    (hDelta : wordDelta objects (upper token.text) (upper context.previous) = delta)
    (hOpen : delta = .closes → 0 < context.depth)
    (h : Follows ⟨.hsqldb, objects⟩ (context.feed ⟨.hsqldb, objects⟩ token) rest depths) :
    Follows ⟨.hsqldb, objects⟩ context (token :: rest) (delta.apply context.depth :: depths) := by
  have hFeed := feed_of_isKeyword objects context hToken hDelta hOpen
  have hTrace := h.trace
  have hPending := h.pending
  have hMax := h.maxDepth
  refine ⟨?_, ?_, ?_, ?_⟩
  · rw [Context.feedAll_cons, hTrace, hFeed]
    simp [Context.trace]
  · rw [Context.feedAll_cons, hPending, hFeed]
  · rw [Context.feedAll_cons, hMax, hFeed]
    rfl
  · -- Before the word the depth is the one at hand, and behind it the rest is followed.
    intro front back hFront
    cases front with
    | nil => rfl
    | cons first front =>
      obtain ⟨rfl, hBack⟩ := List.cons.inj hFront
      have hDepth := h.depth front back hBack
      rw [keywordsOf_cons, if_pos hToken, List.length_cons, List.getElem?_cons_succ,
        Context.feedAll_cons, ← hDepth, hFeed]

/-- A context that is fed tokens with counted keywords follows the counter. -/
theorem Counts.feedAll {objects : ModifiableObjects} {previous : String} {words : List String}
    {depths : List Nat} {context : Context}
    (h : Counts objects context.depth previous words depths)
    (hPrevious : upper context.previous = previous) {tokens : List Token}
    (hTokens : keywordsOf tokens = words) :
    Follows ⟨.hsqldb, objects⟩ context tokens depths := by
  -- The induction is on the tokens, as those that are no keywords leave the counter alone.
  induction tokens generalizing context previous words depths with
  | nil =>
    subst hTokens
    cases h
    refine ⟨by simp, rfl, rfl, ?_⟩
    intro front back hFront
    obtain ⟨rfl, rfl⟩ := List.append_eq_nil_iff.mp hFront.symm
    rfl
  | cons token rest ih =>
    rw [keywordsOf_cons] at hTokens
    by_cases hKeyword : token.isKeyword = true
    · rw [if_pos hKeyword] at hTokens
      subst hTokens hPrevious
      cases h with
      | cons hOpen hLater =>
        have hFeed := feed_of_isKeyword objects context hKeyword rfl hOpen
        have hNext : upper (context.feed ⟨.hsqldb, objects⟩ token).previous =
            upper token.text := by
          rw [hFeed]
          simp [Context.previous]
        refine Follows.cons hKeyword rfl hOpen (ih ?_ hNext rfl)
        rw [hFeed]
        exact hLater
    · rw [if_neg hKeyword] at hTokens
      exact (ih h hPrevious hTokens).skip (Bool.not_eq_true _ ▸ hKeyword)

/-! ## Balanced tokens -/

section Levels

variable {objects : ModifiableObjects} {previous : String} {words : List String}
  {levels : List Nat}

theorem Balanced.length_levels (h : Balanced objects previous words levels) :
    levels.length = words.length := by
  induction h with
  | nil => rfl
  | plain _ _ _ ih => simp [ih]
  | guard _ _ ih => simp [ih]
  | clause _ _ _ ih => simp [ih]
  | block _ _ _ _ _ ihBody ihRest => simp [ihBody, ihRest]

/-- After all words no block is open that was not open before them. -/
theorem Balanced.getLast_levels (h : Balanced objects previous words levels) :
    (0 :: levels).getLast? = some 0 := by
  induction h with
  | nil => rfl
  | plain _ _ _ ih => exact ih
  | guard _ _ ih => exact ih
  | clause _ _ _ ih => exact ih
  | @block _ _ name _ _ inner levels _ _ _ _ _ _ ihRest =>
    -- The levels of the closing words are 0, and those of the rest come behind them.
    have hClosing : ((closing name).map (fun _ => 0) ++ levels).getLast? = some 0 := by
      cases name with
      | none => exact ihRest
      | some word => exact ihRest
    rw [List.getLast?_cons_cons, ← List.cons_append, List.getLast?_append, hClosing]
    rfl

end Levels

/-- A context that always has a block open is not cut. -/
theorem uncut_of_depth_pos (rules : Rules) {context : Context} {tokens : List Token}
    (h : ∀ front back, tokens = front ++ back → 0 < (context.feedAll rules front).depth) :
    context.Uncut rules tokens := by
  induction tokens generalizing context with
  | nil => trivial
  | cons token rest ih =>
    refine ⟨?_, ih ?_⟩
    · -- A token in front of which a block is open is not cut at.
      rintro ⟨-, hBoundary⟩
      have hPositive := h [] (token :: rest) rfl
      have hZero : context.depth = 0 := by simpa [Context.atBoundary] using hBoundary
      rw [Context.feedAll_nil] at hPositive
      omega
    · intro front back hRest
      exact h (token :: front) back (by rw [hRest]; rfl)

/-- Tokens whose keywords are balanced bring a context back to its depth and find no problem. On the
way the depth is the level of the place above the depth at the start, so the largest one is known
too. If a block is open at the start, a splitter goes over the tokens without a cut. -/
theorem balanced_feedAll {objects : ModifiableObjects} {context : Context} {words : List String}
    {levels : List Nat} (h : Balanced objects (upper context.previous) words levels)
    {tokens : List Token} (hTokens : keywordsOf tokens = words) :
    let rules : Rules := ⟨.hsqldb, objects⟩
    let after := context.feedAll rules tokens
    after.depth = context.depth ∧ after.pending = context.pending ∧
      (∀ front back, tokens = front ++ back → ∃ level,
        (0 :: levels)[(keywordsOf front).length]? = some level ∧
          (context.feedAll rules front).depth = context.depth + level) ∧
      after.trace = context.trace ++ (levels.map (context.depth + ·)).toArray ∧
      after.maxDepth = (levels.map (context.depth + ·)).foldl max context.maxDepth ∧
      (0 < context.depth → ∀ splitter : Splitter, splitter.context = context →
        (splitter.run rules tokens).1.context = after ∧
          (splitter.run rules tokens).2.statements = #[] ∧
          (splitter.run rules tokens).2.diagnostics = #[]) := by
  intro rules after
  have hCounts : Counts objects context.depth _ (words ++ [])
      (levels.map (context.depth + ·) ++ []) := h.counts_append context.depth fun _ => .nil
  rw [List.append_nil, List.append_nil] at hCounts
  have hFollows : Follows rules context tokens (levels.map (context.depth + ·)) :=
    hCounts.feedAll rfl hTokens
  -- The depth at the start is that of level 0.
  have hLevels : context.depth :: levels.map (context.depth + ·) =
      (0 :: levels).map (context.depth + ·) := rfl
  have hDepths : ∀ front back, tokens = front ++ back → ∃ level,
      (0 :: levels)[(keywordsOf front).length]? = some level ∧
        (context.feedAll rules front).depth = context.depth + level := by
    intro front back hFront
    have hDepth := hFollows.depth front back hFront
    rw [hLevels, List.getElem?_map, Option.map_eq_some_iff] at hDepth
    obtain ⟨level, hLevel, hEq⟩ := hDepth
    exact ⟨level, hLevel, hEq.symm⟩
  refine ⟨?_, hFollows.pending, hDepths, hFollows.trace, hFollows.maxDepth, ?_⟩
  · obtain ⟨level, hLevel, hDepth⟩ := hDepths tokens [] (List.append_nil tokens).symm
    have hLast := h.getLast_levels
    rw [List.getLast?_eq_getElem?, List.length_cons, Nat.add_sub_cancel, h.length_levels,
      ← hTokens, hLevel] at hLast
    rw [Option.some.inj hLast] at hDepth
    exact hDepth
  · intro hOpen splitter hContext
    -- The block that is open at the start stays open, whatever the level.
    have hUncut : splitter.context.Uncut rules tokens := by
      rw [hContext]
      refine uncut_of_depth_pos rules fun front back hFront => ?_
      obtain ⟨level, -, hDepth⟩ := hDepths front back hFront
      omega
    rw [Splitter.run_uncut hUncut, hContext]
    exact ⟨rfl, rfl, rfl⟩

/-- A procedure in an open block, with a condition and a clause in it and a terminator in each. -/
theorem balanced_feedAll_nested :
    let context : Context := ⟨1, 1, #[⟨"BEGIN", 1⟩], #[]⟩
    let mark : Token := ⟨";", .terminator, ⟨1, 1⟩⟩
    let keyword : String → Token := fun text => ⟨text, .keyword, ⟨1, 1⟩⟩
    let tokens := [keyword "begin", mark, keyword "IF", keyword "FOR", mark, keyword "EACH",
      keyword "END", keyword "if", mark, keyword "END"]
    let after := context.feedAll ⟨.hsqldb, .ofNames ["TABLE"]⟩ tokens
    after.depth = 1 ∧ after.pending = #[] ∧ after.maxDepth = 4 := by
  intro context mark keyword tokens after
  -- A procedure with a conditional in it, whose body is a clause.
  have hBalanced : Balanced (.ofNames ["TABLE"]) (upper context.previous)
      ["BEGIN", "IF", "FOR", "EACH", "END", "IF", "END"] [1, 2, 3, 2, 1, 1, 0] :=
    .block .procedure (absurd rfl) nofun
      (.block .conditional (fun _ => by decide) (fun _ => by decide +kernel)
        (.clause (by decide) (by decide) .nil) .nil) .nil
  have hTokens : keywordsOf tokens = ["BEGIN", "IF", "FOR", "EACH", "END", "IF", "END"] := by
    decide +kernel
  obtain ⟨hDepth, hPending, -, -, hMax, -⟩ := balanced_feedAll hBalanced hTokens
  exact ⟨hDepth, hPending, hMax⟩

end SqlScript
