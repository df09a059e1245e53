import Mathlib.Data.List.Forall2
import SqlScript.Proofs.Split.Coarse
import SqlScript.Proofs.Split.Problems

/-!
# What statements say of themselves

A statement carries the number of its keywords, the largest number of blocks open in it and whether
a terminator ended it. The splitter reads the first two off a context that it replaces at every cut,
also where a segment makes no statement, and it sees blanks and comments before it knows that a
statement begins.

This module shows that the figures are those of the statement's own tokens, from the first one that
is more than trivia up to the terminator or the end: a new context that is fed these tokens and no
others comes to the same. Trivia and terminators are no keywords, so none of them can be counted for
a wrong statement, and no keyword is lost between the statements.

## Results

* `Context.size_keywords_feedAll`,
  `Context.maxDepth_feedAll_pos` — a context counts its keywords, and it has seen a block if and
  only if some token has opened one.
* `endsAfter_iff`                — a token ends a segment if and only if it is cut at.
* `Segment.describes`            — a statement describes the tokens of its segment.
* `split_described`              — the statements of a script describe its tokens, in order and
  without leaving out a keyword.
-/

namespace SqlScript

/-! ## Figures of a context -/

namespace Context

variable (rules : Rules) (context : Context)

/-- A context counts the keywords that it is fed. -/
theorem size_keywords_feedAll (tokens : List Token) :
    (context.feedAll rules tokens).keywords.size =
      context.keywords.size + tokens.countP Token.isKeyword := by
  induction tokens generalizing context with
  | nil => rfl
  | cons token rest ih =>
    -- Each keyword is kept once, and other tokens leave the keywords as they are.
    have hSize : (context.feed rules token).keywords.size =
        context.keywords.size + if token.isKeyword then 1 else 0 := by
      cases hKeyword : token.isKeyword with
      | false =>
        rw [(context.feed_of_not_keyword rules token hKeyword).1]
        rfl
      | true =>
        rw [context.feed_of_keyword rules token hKeyword]
        exact Array.size_push _
    rw [feedAll_cons, ih, hSize, List.countP_cons]
    omega

/-- Some token is a keyword that opens a block. -/
def OpensIn (tokens : List Token) : Prop :=
  ∃ front token back, tokens = front ++ token :: back ∧ token.isKeyword = true ∧
    (context.feedAll rules front).delta rules token = .opens

theorem opensIn_cons (token : Token) (rest : List Token) :
    context.OpensIn rules (token :: rest) ↔
      context.delta rules token = .opens ∨ (context.feed rules token).OpensIn rules rest := by
  constructor
  · rintro ⟨front, other, back, hTokens, hKeyword, hOpens⟩
    -- The keyword is the first token, or it is one of the rest.
    cases front with
    | nil =>
      obtain ⟨rfl, rfl⟩ := List.cons.inj hTokens
      exact .inl hOpens
    | cons first front =>
      obtain ⟨rfl, rfl⟩ := List.cons.inj hTokens
      exact .inr ⟨front, other, back, rfl, hKeyword, hOpens⟩
  · rintro (hOpens | ⟨front, other, back, rfl, hKeyword, hOpens⟩)
    · -- Other tokens than keywords are neutral.
      have hKeyword : token.isKeyword = true := by
        by_contra hNot
        have hNeutral := (context.feed_of_not_keyword rules token (by simpa using hNot)).2
        rw [hNeutral] at hOpens
        cases hOpens
      exact ⟨[], token, rest, rfl, hKeyword, hOpens⟩
    · exact ⟨token :: front, other, back, rfl, hKeyword, hOpens⟩

/-- A context has seen a block if and only if some token has opened one. -/
theorem maxDepth_feedAll_pos (h : context.depth ≤ context.maxDepth) (tokens : List Token) :
    0 < (context.feedAll rules tokens).maxDepth ↔
      0 < context.maxDepth ∨ context.OpensIn rules tokens := by
  -- The context is generalized: what is asked of the rest is asked of the context behind the token.
  induction tokens generalizing context with
  | nil => simp [OpensIn]
  | cons token rest ih =>
    have hMax := context.maxDepth_feed rules token h
    have hNext : (context.feed rules token).depth ≤ (context.feed rules token).maxDepth := by
      rw [depth_feed, hMax]
      exact Nat.le_max_right ..
    have hStep : 0 < (context.feed rules token).maxDepth ↔
        0 < context.maxDepth ∨ context.delta rules token = .opens := by
      rw [hMax]
      cases context.delta rules token with
      | opens =>
        show 0 < max context.maxDepth (context.depth + 1) ↔ _
        simp only [or_true, iff_true]
        omega
      -- Without a block opened the depth stays below the largest one so far.
      | closes =>
        show 0 < max context.maxDepth (context.depth - 1) ↔ _
        rw [Nat.max_eq_left (by omega)]
        simp
      | neutral =>
        show 0 < max context.maxDepth context.depth ↔ _
        rw [Nat.max_eq_left h]
        simp
    rw [feedAll_cons, ih _ hNext, hStep, opensIn_cons, or_assoc]

end Context

/-! ## Segments and cuts -/

section Cuts

variable {α : Type} {rules : Rules} {token : α → Token}

/-- The terminator of a segment is cut at. -/
theorem EndsAfter.cuts {items front : List α} {item : α}
    (h : EndsAfter front item (segments rules token items)) :
    (contextAfter rules Context.empty (front.map token)).cuts (token item) := by
  induction items using cut_induction rules token generalizing front with
  | last items hUncut =>
    -- There is no terminator.
    obtain ⟨before, segment, later, hSegments, hTerminator, -⟩ := h
    rw [segments_uncut hUncut] at hSegments
    have hMem : segment ∈ [(⟨items, none⟩ : Segment α)] := by
      rw [hSegments]
      simp
    rw [List.mem_singleton.mp hMem] at hTerminator
    cases hTerminator
  | cut body mark rest hCut ih =>
    obtain ⟨before, segment, later, hSegments, hTerminator, rfl⟩ := h
    rw [segments_cut hCut] at hSegments
    cases before with
    | nil =>
      -- It is the first segment, with the context of its own items.
      obtain ⟨rfl, -⟩ := List.cons.inj hSegments
      obtain rfl : mark = item := Option.some.inj hTerminator
      show (contextAfter rules Context.empty (body.map token)).cuts (token mark)
      rw [contextAfter_of_uncut hCut.uncut]
      exact hCut.cuts
    | cons first before =>
      obtain ⟨rfl, hRest⟩ := List.cons.inj hSegments
      -- Behind the mark the context is the empty one, with which the rest starts.
      have hLater := ih ⟨before, segment, later, hRest, hTerminator, rfl⟩
      rw [List.flatMap_cons, List.append_assoc, Segment.all, List.append_assoc, List.map_append,
        contextAfter_append, contextAfter_of_uncut hCut.uncut]
      show (contextAfter rules
        (if (Context.empty.feedAll rules (body.map token)).cuts (token mark) then Context.empty
          else _) _).cuts (token item)
      rw [if_pos hCut.cuts]
      exact hLater

/-- A token ends a segment if and only if it is cut at. -/
theorem endsAfter_iff {front : List α} {item : α} {back : List α} :
    EndsAfter front item (segments rules token (front ++ item :: back)) ↔
      (contextAfter rules Context.empty (front.map token)).cuts (token item) :=
  ⟨EndsAfter.cuts, segments_endsAfter rules token back⟩

end Cuts

/-! ## Statements and their tokens -/

namespace Segment

/-- The tokens from the first one on that is more than a blank or a comment. -/
def body (segment : Segment Token) : List Token := segment.items.dropWhile Token.isTrivia

/-- The segment holds more than blanks and comments. -/
def isSolid (segment : Segment Token) : Bool := segment.items.any fun token => !token.isTrivia

end Segment

/-- What the statement says of itself is what the body of the segment says. -/
structure Statement.Describes (rules : Rules) (segment : Segment Token) (statement : Statement) :
    Prop where
  /-- It starts with the first token. -/
  start : segment.body.head?.map Token.start = some statement.start
  /-- A new context that is fed the tokens finds as many keywords. -/
  keywordCount : statement.keywordCount =
    (Context.empty.feedAll rules segment.body).keywords.size
  /-- It finds as many blocks open at once. -/
  maxDepth : statement.maxDepth = (Context.empty.feedAll rules segment.body).maxDepth
  /-- There are blocks if and only if some keyword has opened one. -/
  hasBlocks : statement.hasBlocks = true ↔ Context.empty.OpensIn rules segment.body
  terminated : statement.terminated = segment.terminator.isSome

namespace Segment

variable {rules : Rules} {script : List Char} {segment : Segment Token}

theorem isSolid_iff : segment.isSolid = true ↔ ∃ token ∈ segment.items, token.isTrivia = false := by
  simp [isSolid]

/-- Blanks and comments in front of the body leave the context empty. -/
theorem feedAll_body (rules : Rules) (segment : Segment Token) :
    Context.empty.feedAll rules segment.body = segment.context rules := by
  have hLead : ∀ token ∈ segment.items.takeWhile Token.isTrivia, token.isKeyword = false :=
    fun token hToken => Token.isKeyword_of_isTrivia (List.mem_takeWhile_imp hToken)
  have hItems : segment.items.takeWhile Token.isTrivia ++ segment.body = segment.items :=
    List.takeWhile_append_dropWhile
  rw [context, ← hItems, Context.feedAll_append, Context.feedAll_of_not_keyword rules _ hLead]

/-- A statement describes the tokens of its segment. -/
theorem describes {statement : Statement} (h : statement ∈ segment.statement rules script) :
    statement.Describes rules segment := by
  obtain ⟨hOpening, hCount, hDepth, hTerminated⟩ := Segment.of_mem_statement h
  rw [← feedAll_body] at hCount hDepth
  refine ⟨?_, hCount, hDepth, ?_, hTerminated⟩
  · rw [← hOpening, opening, List.find?_eq_head?_dropWhile_not]
    simp [body]
  · have hPositive := Context.empty.maxDepth_feedAll_pos rules (Nat.le_refl 0) segment.body
    rw [Statement.hasBlocks, decide_eq_true_iff, hDepth, hPositive]
    exact or_iff_right (Nat.lt_irrefl 0)

end Segment

/-! ## Described splits -/

/-- A split is described if the statements have what the tokens between the cuts have. -/
structure Described (rules : Rules) (script : String) (tokens : List Token) (result : Split) :
    Prop where
  /-- The segments are the tokens. -/
  parts : (segments rules id tokens).flatMap Segment.all = tokens
  /-- A segment ends where the splitter ends a statement. -/
  cuts : ∀ front mark back, tokens = front ++ mark :: back →
    (CutAfter rules script front mark ↔ EndsAfter front mark (segments rules id tokens))
  /-- The segments with more than trivia make one statement each, in order. -/
  described : List.Forall₂ (fun segment statement => statement.Describes rules segment)
    ((segments rules id tokens).filter Segment.isSolid) result.statements.toList
  /-- No keyword is left out. -/
  total : (result.statements.toList.map Statement.keywordCount).sum =
    tokens.countP Token.isKeyword
  /-- Every statement but the last one is terminated. -/
  terminated : ∀ statement ∈ result.statements.toList.dropLast, statement.terminated = true
  /-- The last one is not, if and only if some token behind all cuts is more than trivia. -/
  last : (∃ statement ∈ result.statements.toList.getLast?, statement.terminated = false) ↔
    ∃ front token back, tokens = front ++ token :: back ∧ token.isTrivia = false ∧
      ∀ front' mark back', tokens = front' ++ mark :: back' → CutAfter rules script front' mark →
        front'.length < front.length

section Described

/-- Where a function has a result just for the items that are kept, the results belong to them. -/
theorem forall₂_filter_filterMap {α β : Type} {related : α → β → Prop} {keep : α → Bool}
    {f : α → Option β} {items : List α} (hKeep : ∀ item ∈ items, (f item).isSome = keep item)
    (hRelated : ∀ item ∈ items, ∀ result ∈ f item, related item result) :
    List.Forall₂ related (items.filter keep) (items.filterMap f) := by
  induction items with
  | nil => exact .nil
  | cons item rest ih =>
    obtain ⟨hItem, hRest⟩ := List.forall_mem_cons.mp hKeep
    obtain ⟨hResult, hOthers⟩ := List.forall_mem_cons.mp hRelated
    have hForall := ih hRest hOthers
    -- Both lists take the item or neither does, so they stay in step.
    cases hSome : f item with
    | none =>
      rw [hSome] at hItem
      rw [List.filter_cons_of_neg (by simp [← hItem]), List.filterMap_cons_none hSome]
      exact hForall
    | some result =>
      rw [hSome] at hItem
      rw [List.filter_cons_of_pos (by simp [← hItem]), List.filterMap_cons_some hSome]
      exact .cons (hResult result hSome) hForall

variable {rules : Rules}

/-- The keywords of the statements are those of the segments: neither terminators nor the segments
without a statement hold any. -/
theorem sum_keywordCount {script : List Char} {parts : List (Segment Token)}
    (hMakes : ∀ segment ∈ parts, (segment.statement rules script).isSome = true ↔
      ∃ token ∈ segment.items, token.isTrivia = false)
    (hMarks : ∀ segment ∈ parts, ∀ mark ∈ segment.terminator, mark.isTerminator = true) :
    ((parts.filterMap (Segment.statement rules script)).map Statement.keywordCount).sum =
      (parts.flatMap Segment.all).countP Token.isKeyword := by
  induction parts with
  | nil => rfl
  | cons segment rest ih =>
    obtain ⟨hFirst, hOthers⟩ := List.forall_mem_cons.mp hMakes
    obtain ⟨hMark, hLater⟩ := List.forall_mem_cons.mp hMarks
    have hTerminator : segment.terminator.toList.countP Token.isKeyword = 0 := by
      rw [List.countP_eq_zero]
      intro mark hMem
      simp [Token.isKeyword_of_isTerminator (hMark mark (by simpa using hMem))]
    rw [List.flatMap_cons, List.countP_append, Segment.all, List.countP_append, hTerminator,
      ← ih hOthers hLater]
    cases hStatement : segment.statement rules script with
    | none =>
      -- Without a statement there are trivia only.
      rw [List.filterMap_cons_none hStatement]
      rw [hStatement] at hFirst
      have hItems : segment.items.countP Token.isKeyword = 0 := by
        rw [List.countP_eq_zero]
        intro token hToken
        have hTrivia : token.isTrivia ≠ false := by
          intro hSolid
          have hSome := hFirst.mpr ⟨token, hToken, hSolid⟩
          cases hSome
        simp [Token.isKeyword_of_isTrivia (by simpa using hTrivia)]
      rw [hItems]
      omega
    | some statement =>
      -- The statement has counted what its context was fed, which is the whole segment.
      obtain ⟨-, hCount, -, -⟩ := Segment.of_mem_statement hStatement
      have hSize := Context.empty.size_keywords_feedAll rules segment.items
      rw [List.filterMap_cons_some hStatement, List.map_cons, List.sum_cons, hCount,
        Segment.context, hSize]
      show 0 + _ + _ = _
      omega

section Last

variable {tokens last : List Token} {init : List (Segment Token)}
  (hParts : segments rules id tokens = init ++ [⟨last, none⟩])

include hParts

theorem tokens_eq_of_parts : tokens = init.flatMap Segment.all ++ last := by
  have hAll := flatMap_all_segments rules id tokens
  rw [hParts, List.flatMap_append] at hAll
  simpa [Segment.all] using hAll.symm

/-- Every cut is in front of the last segment. -/
theorem length_lt_of_cut {front : List Token} {mark : Token} {back : List Token}
    (hTokens : tokens = front ++ mark :: back)
    (hCut : (contextAfter rules Context.empty front).cuts mark) :
    front.length < (init.flatMap Segment.all).length := by
  have hEnds : EndsAfter front mark (segments rules id tokens) := by
    rw [hTokens]
    exact endsAfter_iff.mpr (by simpa using hCut)
  obtain ⟨before, segment, later, hSegments, hTerminator, rfl⟩ := hEnds
  rw [hParts] at hSegments
  -- The segment has a terminator, so it is not the last one.
  rcases List.eq_nil_or_concat' later with rfl | ⟨others, final, rfl⟩
  · obtain ⟨-, hLast⟩ := List.append_inj' hSegments rfl
    rw [← (List.cons.inj hLast).1] at hTerminator
    cases hTerminator
  · rw [← List.cons_append, ← List.append_assoc] at hSegments
    obtain ⟨rfl, -⟩ := List.append_inj' hSegments rfl
    simp [Segment.all, hTerminator]

/-- Unless nothing is cut, the last segment starts directly behind a cut. -/
theorem exists_cut_before_last (hInit : ∀ segment ∈ init, segment.terminator ≠ none)
    (hSome : init.flatMap Segment.all ≠ []) :
    ∃ front mark, init.flatMap Segment.all = front ++ [mark] ∧
      (contextAfter rules Context.empty front).cuts mark := by
  rcases List.eq_nil_or_concat' init with rfl | ⟨before, segment, rfl⟩
  · exact absurd rfl hSome
  obtain ⟨mark, hMark⟩ := Option.ne_none_iff_exists'.mp (hInit segment (by simp))
  refine ⟨before.flatMap Segment.all ++ segment.items, mark, ?_, ?_⟩
  · simp [Segment.all, hMark]
  · -- The last terminator before the last segment ends a segment, so it is cut at.
    have hEnds : EndsAfter (before.flatMap Segment.all ++ segment.items) mark
        (segments rules id tokens) :=
      ⟨before, segment, [⟨last, none⟩], by rw [hParts]; simp, hMark, rfl⟩
    have hCuts := hEnds.cuts
    rwa [List.map_id] at hCuts

/-- The last segment is solid if and only if some token behind all cuts is more than trivia. -/
theorem exists_solid_last_iff (hInit : ∀ segment ∈ init, segment.terminator ≠ none) :
    (∃ token ∈ last, token.isTrivia = false) ↔
      ∃ front token back, tokens = front ++ token :: back ∧ token.isTrivia = false ∧
        ∀ front' mark back', tokens = front' ++ mark :: back' →
          (contextAfter rules Context.empty front').cuts mark → front'.length < front.length := by
  have hTokens := tokens_eq_of_parts hParts
  constructor
  · -- The token stands behind all segments in front of the last one, and they hold the cuts.
    rintro ⟨token, hToken, hTrivia⟩
    obtain ⟨items, others, rfl⟩ := List.append_of_mem hToken
    refine ⟨init.flatMap Segment.all ++ items, token, others, ?_, hTrivia, ?_⟩
    · rw [hTokens, List.append_assoc]
    · intro front' mark back' hMark hCut
      have hLess := length_lt_of_cut hParts hMark hCut
      rw [List.length_append]
      omega
  · rintro ⟨front, token, back, hFront, hTrivia, hBehind⟩
    -- The cut in front of the last segment is in front of the token, too.
    have hAhead : (init.flatMap Segment.all).length ≤ front.length := by
      by_cases hSome : init.flatMap Segment.all = []
      · simp [hSome]
      · obtain ⟨front', mark, hAll, hCut⟩ := exists_cut_before_last hParts hInit hSome
        have hLess := hBehind front' mark last (by rw [hTokens, hAll]; simp) hCut
        rw [hAll, List.length_append, List.length_singleton]
        omega
    have hPrefix : init.flatMap Segment.all <+: front :=
      List.prefix_of_prefix_length_le (hTokens ▸ List.prefix_append ..)
        (hFront ▸ List.prefix_append ..) hAhead
    obtain ⟨items, rfl⟩ := hPrefix
    rw [hTokens, List.append_assoc] at hFront
    have hLast := List.append_cancel_left hFront
    exact ⟨token, by rw [hLast]; simp, hTrivia⟩

end Last

variable {script : String} {tokens : List Token} {told : Report}

/-- The statement of the last segment is the only one that is not terminated. -/
theorem terminated_of_verbatim (hVerbatim : Verbatim rules script tokens told.split)
    {init : List (Segment Token)} {last : List Token}
    (hParts : segments rules id tokens = init ++ [⟨last, none⟩])
    (hInit : ∀ segment ∈ init, segment.terminator ≠ none) :
    (∀ statement ∈ told.split.statements.toList.dropLast, statement.terminated = true) ∧
      ((∃ statement ∈ told.split.statements.toList.getLast?, statement.terminated = false) ↔
        ∃ token ∈ last, token.isTrivia = false) := by
  let final : Segment Token := ⟨last, none⟩
  have hMakes := hVerbatim.makes final (by simp [hParts, final])
  have hMade := hVerbatim.made
  rw [hParts, List.filterMap_append] at hMade
  -- The statements of the segments in front are terminated.
  have hEnded : ∀ statement ∈ init.filterMap (Segment.statement rules script.toList),
      statement.terminated = true := by
    intro statement hStatement
    obtain ⟨segment, hSegment, hSome⟩ := List.mem_filterMap.mp hStatement
    obtain ⟨-, -, -, hTerminated⟩ := Segment.of_mem_statement hSome
    rw [hTerminated, Option.isSome_iff_ne_none]
    exact hInit segment hSegment
  -- The last segment makes a statement, or the last statement is one of those in front.
  cases hFinal : final.statement rules script.toList with
  | none =>
    rw [List.filterMap_cons_none hFinal, List.filterMap_nil, List.append_nil] at hMade
    rw [hMade]
    refine ⟨fun statement hStatement => hEnded statement (List.dropLast_subset _ hStatement), ?_⟩
    constructor
    · rintro ⟨statement, hStatement, hOpen⟩
      rw [hEnded statement (List.mem_of_getLast? hStatement)] at hOpen
      cases hOpen
    · intro hSolid
      have hSome := hMakes.mpr hSolid
      rw [hFinal] at hSome
      cases hSome
  | some statement =>
    rw [List.filterMap_cons_some hFinal, List.filterMap_nil] at hMade
    rw [hMade, List.dropLast_concat, List.getLast?_concat]
    refine ⟨hEnded, fun _ => hMakes.mp (by rw [hFinal]; rfl), fun _ => ?_⟩
    exact ⟨statement, rfl, (Segment.of_mem_statement hFinal).2.2.2⟩

theorem described_of_verbatim (hVerbatim : Verbatim rules script tokens told.split) :
    Described rules script tokens told.split := by
  -- Every segment but the last has a terminator, so the cuts can be told from the segments.
  obtain ⟨init, last, hParts, hInit, -⟩ := exists_last_segment rules id tokens
  obtain ⟨hTerminated, hLast⟩ := terminated_of_verbatim hVerbatim hParts hInit
  refine ⟨flatMap_all_segments rules id tokens, ?cuts, ?described, ?total, hTerminated, ?last⟩
  case cuts =>
    rintro front mark back rfl
    rw [cutAfter_iff, endsAfter_iff, List.map_id]
    rfl
  case described =>
    rw [hVerbatim.made]
    refine forall₂_filter_filterMap (fun segment hSegment => ?_)
      fun segment _ statement hStatement => Segment.describes hStatement
    rw [Bool.eq_iff_iff, hVerbatim.makes segment hSegment, Segment.isSolid_iff]
  case total =>
    rw [hVerbatim.made]
    have hSum := sum_keywordCount hVerbatim.makes fun segment hSegment mark hMark =>
      ((uncut_of_mem_segments rules id segment hSegment).2 mark hMark).1
    rw [hSum, flatMap_all_segments]
  case last =>
    simp only [cutAfter_iff]
    exact hLast.trans (exists_solid_last_iff hParts hInit)

end Described

/-- What the statements of a script say of themselves is what their own tokens say. -/
theorem split_described {rules : Rules} {script : String} {result : Split}
    (h : split rules script = .ok result) :
    ∃ tokens, tokenize rules (dropByteOrderMark script) = .ok tokens ∧
      Described rules (dropByteOrderMark script) tokens result := by
  obtain ⟨told, hReport, rfl⟩ := exists_report_of_split h
  obtain ⟨tokens, hTokens, -, hVerbatim⟩ := exists_tokens_of_report hReport
  exact ⟨tokens, hTokens, described_of_verbatim hVerbatim⟩

/-- A statement without blocks, which a terminator ended, and one with a block, which none did. -/
theorem split_described_blocks :
    ∃ tokens, tokenize Dialect.hsqldb.rules (dropByteOrderMark "END;BEGIN") = .ok tokens ∧
      Described Dialect.hsqldb.rules (dropByteOrderMark "END;BEGIN") tokens
        ⟨#[⟨"END", ⟨1, 1⟩, 1, 0, true⟩, ⟨"BEGIN", ⟨1, 5⟩, 1, 1, false⟩],
          #[.unmatchedEnd ⟨1, 1⟩, .unclosedBlock ⟨1, 5⟩ 1]⟩ :=
  split_described split_end_begin

end SqlScript
