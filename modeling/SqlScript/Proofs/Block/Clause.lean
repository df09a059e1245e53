import SqlScript.Proofs.Block.Balance

/-!
# Clauses that start with `FOR`

`FOR EACH ROW` and `FOR SQLEXCEPTION` are clauses and no loops. A context sees `FOR` before it can
know, so it counts a block and takes it back at the word behind. The two words are looked at with
different words in front of them: whether `FOR` opens a block depends on the keyword before it,
whether the other word closes one only on its being directly behind `FOR`.

* `Context.depth_loop` — what `FOR` does, and `Context.delta_clause` — what the word behind it does,
  both from any context;
* `feedAll_clause` — the two together: they cancel out unless `FOR` follows `END`. Behind `END` the
  `FOR` is taken for the name of the block that was closed and opens nothing, so the clause closes
  a block around it, or is reported where there is none.
-/

namespace SqlScript

/-- The token is a keyword, one of these words in some letter case. -/
def Token.Reads (token : Token) (words : List String) : Prop :=
  token.isKeyword = true ∧ upper token.text ∈ words

instance (token : Token) (words : List String) : Decidable (token.Reads words) :=
  inferInstanceAs (Decidable (_ ∧ _))

namespace Context

variable (objects : ModifiableObjects) (context : Context)

/-- A keyword has the effect that its word has behind the last keyword. -/
theorem delta_of_isKeyword {token : Token} (h : token.isKeyword = true) :
    context.delta ⟨.hsqldb, objects⟩ token =
      wordDelta objects (upper token.text) (upper context.previous) := by
  unfold delta
  rw [if_pos h, delta_eq_wordDelta]

/-- `FOR` opens a block, except behind `END`. -/
theorem depth_loop {loop : Token} (h : loop.Reads ["FOR"]) :
    (context.feed ⟨.hsqldb, objects⟩ loop).depth =
      if upper context.previous = "END" then context.depth else context.depth + 1 := by
  obtain ⟨hKeyword, hWord⟩ := h
  rw [depth_feed, context.delta_of_isKeyword objects hKeyword, List.mem_singleton.mp hWord]
  by_cases hEnd : upper context.previous = "END"
  · rw [if_pos hEnd, hEnd, wordDelta_name .loop]
    rfl
  · rw [if_neg hEnd, wordDelta_opener .loop (fun _ => hEnd) nofun]
    rfl

/-- `FOR` is never a problem. -/
theorem pending_loop {loop : Token} (h : loop.Reads ["FOR"]) :
    (context.feed ⟨.hsqldb, objects⟩ loop).pending = context.pending := by
  obtain ⟨hKeyword, hWord⟩ := h
  -- Only a close can be a problem.
  have hOpen : wordDelta objects (upper loop.text) (upper context.previous) ≠ .closes := by
    rw [List.mem_singleton.mp hWord]
    by_cases hEnd : upper context.previous = "END"
    · rw [hEnd, wordDelta_name .loop]
      nofun
    · rw [wordDelta_opener .loop (fun _ => hEnd) nofun]
      nofun
  rw [feed_of_isKeyword objects context hKeyword rfl fun hCloses => absurd hCloses hOpen]

/-- Behind `FOR` the words `EACH` and `SQLEXCEPTION` close a block. -/
theorem delta_clause {clause : Token} (h : clause.Reads ["EACH", "SQLEXCEPTION"])
    (hPrevious : upper context.previous = "FOR") :
    context.delta ⟨.hsqldb, objects⟩ clause = .closes := by
  obtain ⟨hKeyword, hWord⟩ := h
  rw [context.delta_of_isKeyword objects hKeyword, hPrevious]
  exact wordDelta_clause hWord

end Context

/-- `FOR` and the word that makes it a clause, with any other tokens than keywords in between. The
word closes a block whatever `FOR` did. Unless `FOR` follows `END`, it is the block that `FOR` has
opened: the depth is as before, and no problem is found. Behind `END` it is the block around them,
and where there is none the word is a problem. -/
theorem feedAll_clause (objects : ModifiableObjects) (context : Context) {loop clause : Token}
    {between : List Token} (hLoop : loop.Reads ["FOR"])
    (hBetween : ∀ token ∈ between, token.isKeyword = false)
    (hClause : clause.Reads ["EACH", "SQLEXCEPTION"]) :
    let rules : Rules := ⟨.hsqldb, objects⟩
    let opened := context.feedAll rules (loop :: between)
    let after := context.feedAll rules (loop :: (between ++ [clause]))
    opened.delta rules clause = .closes ∧
      (upper context.previous ≠ "END" → opened.depth = context.depth + 1 ∧
        after.depth = context.depth ∧ after.pending = context.pending) ∧
      (upper context.previous = "END" → opened.depth = context.depth ∧
        after.depth = context.depth - 1 ∧
        after.pending.toList = context.pending.toList ++
          if context.depth = 0 then [.unmatchedEnd clause.start] else []) := by
  intro rules opened after
  -- The tokens in between leave the context as `FOR` has left it.
  have hOpened : opened = context.feed rules loop := by
    show context.feedAll rules (loop :: between) = _
    rw [Context.feedAll_cons, Context.feedAll_of_not_keyword _ _ hBetween]
  have hAfter : after = opened.feed rules clause := by
    show context.feedAll rules (loop :: between ++ [clause]) = _
    rw [Context.feedAll_append]
    rfl
  have hPrevious : upper opened.previous = "FOR" := by
    rw [hOpened, Context.previous_feed, if_pos hLoop.1, upper_upper]
    exact List.mem_singleton.mp hLoop.2
  have hCloses : opened.delta rules clause = .closes :=
    opened.delta_clause objects hClause hPrevious
  have hDepth := context.depth_loop objects hLoop
  have hPending := context.pending_loop objects hLoop
  rw [← hOpened] at hDepth hPending
  have hAfterDepth : after.depth = opened.depth - 1 := by
    rw [hAfter, Context.depth_feed, hCloses]
    rfl
  have hAfterPending := Context.pending_feed rules opened clause
  rw [← hAfter, hCloses, hPending] at hAfterPending
  refine ⟨hCloses, fun hNotEnd => ?_, fun hEnd => ?_⟩
  · -- `FOR` has opened a block, and the other word closes it.
    rw [if_neg hNotEnd] at hDepth
    refine ⟨hDepth, by omega, ?_⟩
    rw [if_neg (by omega), List.append_nil] at hAfterPending
    exact Array.toList_inj.mp hAfterPending
  · -- `FOR` has opened nothing, so the other word takes a block around it or is a stray.
    rw [if_pos hEnd] at hDepth
    refine ⟨hDepth, by omega, ?_⟩
    rw [hAfterPending, hDepth]
    simp

/-- A row trigger at the start of a statement, and the same words behind the end of a block. -/
theorem feedAll_clause_trigger :
    let keyword : String → Token := fun text => ⟨text, .keyword, ⟨1, 1⟩⟩
    let blank : Token := ⟨" ", .whitespace, ⟨1, 4⟩⟩
    let rules := Dialect.hsqldb.rules
    let closed : Context := ⟨1, 2, #[⟨"BEGIN", 1⟩, ⟨"BEGIN", 2⟩, ⟨"END", 1⟩], #[]⟩
    (Context.empty.feedAll rules [keyword "for", blank, keyword "EACH"]).depth = 0 ∧
      (closed.feedAll rules [keyword "for", blank, keyword "sqlexception"]).depth = 0 := by
  intro keyword blank rules closed
  have hBlank : ∀ token ∈ [blank], token.isKeyword = false := by decide
  have hFor : (keyword "for").Reads ["FOR"] := by decide +kernel
  have hEach : (keyword "EACH").Reads ["EACH", "SQLEXCEPTION"] := by decide +kernel
  have hHandler : (keyword "sqlexception").Reads ["EACH", "SQLEXCEPTION"] := by decide +kernel
  obtain ⟨-, hStart, -⟩ := feedAll_clause rules.objects .empty hFor hBlank hEach
  obtain ⟨-, -, hClosed⟩ := feedAll_clause rules.objects closed hFor hBlank hHandler
  exact ⟨(hStart (by decide +kernel)).2.1, (hClosed (by decide +kernel)).2.1⟩

/-- Not every clause cancels out: in a block, behind the end of a block inside it, `FOR EACH` takes
the block around it away. -/
theorem not_clause_neutral :
    ¬ ∀ (objects : ModifiableObjects) (seen between : List Token) (loop clause : Token),
      loop.Reads ["FOR"] → (∀ token ∈ between, token.isKeyword = false) →
      clause.Reads ["EACH", "SQLEXCEPTION"] →
      let rules : Rules := ⟨.hsqldb, objects⟩
      let context := Context.empty.feedAll rules seen
      let after := context.feedAll rules (loop :: (between ++ [clause]))
      after.depth = context.depth ∧ after.pending = context.pending := by
  intro hNeutral
  let keyword : String → Token := fun text => ⟨text, .keyword, ⟨1, 1⟩⟩
  obtain ⟨hDepth, -⟩ := hNeutral Dialect.hsqldb.rules.objects
    [keyword "BEGIN", keyword "BEGIN", keyword "END"] [] (keyword "FOR") (keyword "EACH")
    (by decide +kernel) nofun (by decide +kernel)
  -- The FOR names the block that END has closed, and EACH closes the block around it.
  revert hDepth
  decide +kernel

end SqlScript
