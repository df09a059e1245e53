import SqlScript.Proofs.Locator.Lookup
import SqlScript.Split.Script

/-!
# Segments of a script

A splitter cuts a script at the terminators that it finds outside of blocks. What stands between
two cuts is a `Segment`; it is worked on with a context of its own, and of what was done before
only the cursor of the locator is left. Since the answers of a locator do not depend on its cursor,
the report on a script is made of the reports on its segments, each by itself.

The segments of any items with tokens can be formed, so that what belongs to a token can be kept
together with it.

## Results

* `cut_induction`             — what holds of the last segment and of one segment before others
  holds of all tokens.
* `reportTokens_eq`           — the report on a script is the sequence of the reports on its
  segments.
* `segments_endsAfter` and
  `segments_liesAfter`        — a terminator outside of blocks ends a segment, every other token is
  in one.
-/

namespace SqlScript

/-! ## Contexts along some tokens -/

namespace Context

variable (rules : Rules) (context : Context)

/-- The context after some tokens of one statement. -/
def feedAll (tokens : List Token) : Context := tokens.foldl (feed rules) context

@[simp] theorem feedAll_nil : context.feedAll rules [] = context := rfl

@[simp] theorem feedAll_cons (token : Token) (rest : List Token) :
    context.feedAll rules (token :: rest) = (context.feed rules token).feedAll rules rest := rfl

@[simp] theorem feedAll_append (first second : List Token) :
    context.feedAll rules (first ++ second) =
      (context.feedAll rules first).feedAll rules second :=
  List.foldl_append

/-- What is logged of some tokens of one statement. -/
def eventsAll (context : Context) : List Token → Array Event
  | [] => #[]
  | token :: rest => context.events rules token ++ eventsAll (context.feed rules token) rest

/-- No token ends the statement. -/
def Uncut (context : Context) : List Token → Prop
  | [] => True
  | token :: rest => ¬ context.cuts token ∧ Uncut (context.feed rules token) rest

/-- The first token that ends the statement, if there is one. -/
theorem exists_cut (tokens : List Token) :
    context.Uncut rules tokens ∨ ∃ body mark rest, tokens = body ++ mark :: rest ∧
      context.Uncut rules body ∧ (context.feedAll rules body).cuts mark := by
  induction tokens generalizing context with
  | nil => exact .inl trivial
  | cons token rest ih =>
    by_cases hCuts : context.cuts token
    · exact .inr ⟨[], token, rest, rfl, trivial, hCuts⟩
    · obtain hUncut | ⟨body, mark, rest, rfl, hUncut, hMark⟩ := ih (context.feed rules token)
      · exact .inl ⟨hCuts, hUncut⟩
      · exact .inr ⟨token :: body, mark, rest, rfl, ⟨hCuts, hUncut⟩, hMark⟩

end Context

/-- The tokens make up a statement of their own, and the mark ends it. -/
structure Cut (rules : Rules) (body : List Token) (mark : Token) : Prop where
  uncut : Context.empty.Uncut rules body
  cuts : (Context.empty.feedAll rules body).cuts mark

/-! ## Segments -/

/-- Some items between two cuts, and the one that is cut at after them. -/
structure Segment (α : Type) where
  items : List α
  terminator : Option α

namespace Segment

variable {α β : Type}

/-- The items of a segment with its terminator. -/
def all (segment : Segment α) : List α := segment.items ++ segment.terminator.toList

/-- The segment with one more item in front. -/
def push (item : α) (segment : Segment α) : Segment α :=
  ⟨item :: segment.items, segment.terminator⟩

/-- The segment of what belongs to the items. -/
def map (f : α → β) (segment : Segment α) : Segment β :=
  ⟨segment.items.map f, segment.terminator.map f⟩

@[simp] theorem items_map (f : α → β) (segment : Segment α) :
    (segment.map f).items = segment.items.map f := rfl

@[simp] theorem terminator_map (f : α → β) (segment : Segment α) :
    (segment.map f).terminator = segment.terminator.map f := rfl

end Segment

section Segments

variable {α : Type} (rules : Rules) (token : α → Token)

/-- The segments of some items that follow a part of a statement. -/
def segmentsFrom (context : Context) : List α → List (Segment α)
  | [] => [⟨[], none⟩]
  | item :: rest =>
    if context.cuts (token item) then ⟨[], some item⟩ :: segmentsFrom Context.empty rest
    else (segmentsFrom (context.feed rules (token item)) rest).modifyHead (Segment.push item)

/-- The segments of some items. -/
def segments (items : List α) : List (Segment α) := segmentsFrom rules token Context.empty items

/-- Items without a cut are one segment, which has no terminator. -/
theorem segmentsFrom_uncut {context : Context} {items : List α}
    (h : context.Uncut rules (items.map token)) :
    segmentsFrom rules token context items = [⟨items, none⟩] := by
  induction items generalizing context with
  | nil => rfl
  | cons item rest ih =>
    obtain ⟨hItem, hRest⟩ := h
    rw [segmentsFrom, if_neg hItem, ih hRest]
    rfl

/-- Items up to the first cut are a segment, and those behind it have segments of their own. -/
theorem segmentsFrom_cut {context : Context} {body : List α}
    (hBody : context.Uncut rules (body.map token)) {mark : α}
    (hMark : (context.feedAll rules (body.map token)).cuts (token mark)) (rest : List α) :
    segmentsFrom rules token context (body ++ mark :: rest) =
      ⟨body, some mark⟩ :: segments rules token rest := by
  induction body generalizing context with
  | nil =>
    rw [List.nil_append, segmentsFrom, if_pos (by exact hMark)]
    rfl
  | cons item body ih =>
    obtain ⟨hItem, hBody⟩ := hBody
    rw [List.cons_append, segmentsFrom, if_neg hItem, ih hBody hMark]
    rfl

/-- There is always a segment, if only one without items. -/
theorem segmentsFrom_ne_nil (context : Context) (items : List α) :
    ∃ first others, segmentsFrom rules token context items = first :: others := by
  induction items generalizing context with
  | nil => exact ⟨_, _, rfl⟩
  | cons item rest ih =>
    obtain ⟨first, others, hRest⟩ := ih (context.feed rules (token item))
    rw [segmentsFrom]
    split
    · exact ⟨_, _, rfl⟩
    · rw [hRest]
      exact ⟨_, _, rfl⟩

/-- What holds of items without a cut, and of items up to a cut and after it if it holds of those
after it, holds of all items. -/
theorem cut_induction {motive : List α → Prop}
    (last : ∀ items, Context.empty.Uncut rules (items.map token) → motive items)
    (cut : ∀ body mark rest, Cut rules (body.map token) (token mark) → motive rest →
      motive (body ++ mark :: rest))
    (items : List α) : motive items := by
  induction hLength : items.length using Nat.strongRecOn generalizing items with
  | _ n ih =>
    obtain hUncut | ⟨body, mark, rest, hItems, hBody, hMark⟩ :=
      Context.empty.exists_cut rules (items.map token)
    · exact last items hUncut
    · obtain ⟨body, others, rfl, rfl, hOthers⟩ := List.map_eq_append_iff.mp hItems
      obtain ⟨mark, rest, rfl, rfl, -⟩ := List.map_eq_cons_iff.mp hOthers
      -- What is behind the first cut is shorter.
      refine cut body mark rest ⟨hBody, hMark⟩ (ih rest.length ?_ rest rfl)
      rw [← hLength, List.length_append, List.length_cons]
      omega

variable {rules token}

theorem segments_uncut {items : List α} (h : Context.empty.Uncut rules (items.map token)) :
    segments rules token items = [⟨items, none⟩] :=
  segmentsFrom_uncut rules token h

theorem segments_cut {body : List α} {mark : α} (h : Cut rules (body.map token) (token mark))
    (rest : List α) :
    segments rules token (body ++ mark :: rest) = ⟨body, some mark⟩ :: segments rules token rest :=
  segmentsFrom_cut rules token h.uncut h.cuts rest

variable (rules token)

/-- The segments are all items, in order. -/
theorem flatMap_all_segments (items : List α) :
    (segments rules token items).flatMap Segment.all = items := by
  induction items using cut_induction rules token with
  | last items h =>
    rw [segments_uncut h]
    simp [Segment.all]
  | cut body mark rest h ih =>
    rw [segments_cut h, List.flatMap_cons, ih]
    simp [Segment.all]

/-- The segments of what belongs to some items are those of the items. -/
theorem segments_comp {β : Type} (f : β → α) (items : List β) :
    segments rules token (items.map f) =
      (segments rules (token ∘ f) items).map (Segment.map f) := by
  induction items using cut_induction rules (token ∘ f) with
  | last items h =>
    rw [segments_uncut h, segments_uncut (by simpa using h)]
    rfl
  | cut body mark rest h ih =>
    rw [segments_cut h, List.map_append, List.map_cons, segments_cut (by simpa using h), ih]
    rfl

/-- The segments of tokens are those of the items with these tokens. -/
theorem segments_map (items : List α) :
    segments rules id (items.map token) = (segments rules token items).map (Segment.map token) :=
  segments_comp rules id token items

/-- Within a segment no token ends the statement, and its terminator does. -/
theorem uncut_of_mem_segments {items : List α} :
    ∀ segment ∈ segments rules token items,
      Context.empty.Uncut rules (segment.items.map token) ∧ ∀ mark ∈ segment.terminator,
        (Context.empty.feedAll rules (segment.items.map token)).cuts (token mark) := by
  induction items using cut_induction rules token with
  | last items h =>
    rw [segments_uncut h]
    intro segment hSegment
    rw [List.mem_singleton.mp hSegment]
    exact ⟨h, nofun⟩
  | cut body mark rest h ih =>
    rw [segments_cut h]
    intro segment hSegment
    rcases List.mem_cons.mp hSegment with rfl | hSegment
    · refine ⟨h.uncut, fun other hOther => ?_⟩
      rw [← Option.mem_some_iff.mp hOther]
      exact h.cuts
    · exact ih segment hSegment

/-! ## Where a token belongs -/

/-- The context before the next token, a new one after every cut. -/
def contextAfter (rules : Rules) (context : Context) : List Token → Context
  | [] => context
  | token :: rest =>
    contextAfter rules (if context.cuts token then Context.empty else context.feed rules token) rest

/-- Without a cut the context is that of one statement. -/
theorem contextAfter_of_uncut {rules : Rules} {context : Context} {tokens : List Token}
    (h : context.Uncut rules tokens) :
    contextAfter rules context tokens = context.feedAll rules tokens := by
  induction tokens generalizing context with
  | nil => rfl
  | cons token rest ih =>
    obtain ⟨hToken, hRest⟩ := h
    rw [contextAfter, if_neg hToken, ih hRest, Context.feedAll_cons]

/-- The item after some others is the terminator of a segment. -/
def EndsAfter (front : List α) (item : α) (segments : List (Segment α)) : Prop :=
  ∃ before segment later, segments = before ++ segment :: later ∧
    segment.terminator = some item ∧ front = before.flatMap Segment.all ++ segment.items

/-- The item after some others is in a segment. -/
def LiesAfter (front : List α) (item : α) (segments : List (Segment α)) : Prop :=
  ∃ before segment later, segments = before ++ segment :: later ∧
    ∃ items others, segment.items = items ++ item :: others ∧
      front = before.flatMap Segment.all ++ items

section Places

variable {front : List α} {item : α} {others : List (Segment α)}

/-- A segment in front does not change where an item is. -/
theorem EndsAfter.cut (h : EndsAfter front item others) (mark : α) :
    EndsAfter (mark :: front) item (⟨[], some mark⟩ :: others) := by
  obtain ⟨before, segment, later, rfl, hTerminator, rfl⟩ := h
  exact ⟨⟨[], some mark⟩ :: before, segment, later, rfl, hTerminator, rfl⟩

theorem LiesAfter.cut (h : LiesAfter front item others) (mark : α) :
    LiesAfter (mark :: front) item (⟨[], some mark⟩ :: others) := by
  obtain ⟨before, segment, later, rfl, items, tail, hItems, rfl⟩ := h
  exact ⟨⟨[], some mark⟩ :: before, segment, later, rfl, items, tail, hItems, rfl⟩

-- An item in front goes to the first segment, which may be the one looked for.

theorem EndsAfter.push (h : EndsAfter front item others) (first : α) :
    EndsAfter (first :: front) item (others.modifyHead (Segment.push first)) := by
  obtain ⟨before, segment, later, rfl, hTerminator, rfl⟩ := h
  cases before with
  | nil => exact ⟨[], segment.push first, later, rfl, hTerminator, rfl⟩
  | cons other before => exact ⟨other.push first :: before, segment, later, rfl, hTerminator, rfl⟩

theorem LiesAfter.push (h : LiesAfter front item others) (first : α) :
    LiesAfter (first :: front) item (others.modifyHead (Segment.push first)) := by
  obtain ⟨before, segment, later, rfl, items, tail, hItems, rfl⟩ := h
  cases before with
  | nil =>
    have hPushed : (segment.push first).items = first :: items ++ item :: tail := by
      rw [Segment.push, hItems]
      rfl
    exact ⟨[], segment.push first, later, rfl, first :: items, tail, hPushed, rfl⟩
  | cons other before =>
    exact ⟨other.push first :: before, segment, later, rfl, items, tail, hItems, rfl⟩

end Places

/-- An item ends a segment or is in one, as the context before it says. -/
theorem segmentsFrom_located (context : Context) (front : List α) (item : α) (back : List α) :
    ((contextAfter rules context (front.map token)).cuts (token item) →
      EndsAfter front item (segmentsFrom rules token context (front ++ item :: back))) ∧
    (¬ (contextAfter rules context (front.map token)).cuts (token item) →
      LiesAfter front item (segmentsFrom rules token context (front ++ item :: back))) := by
  -- The induction is on what comes before the item. Each item there ends a segment or joins the
  -- first one.
  induction front generalizing context with
  | nil =>
    rw [List.nil_append, segmentsFrom]
    constructor
    · intro hCuts
      rw [if_pos (by exact hCuts)]
      exact ⟨[], ⟨[], some item⟩, _, rfl, rfl, rfl⟩
    · intro hCuts
      obtain ⟨first, others, hBack⟩ := segmentsFrom_ne_nil rules token
        (context.feed rules (token item)) back
      rw [if_neg (by exact hCuts), hBack]
      exact ⟨[], first.push item, others, rfl, [], first.items, rfl, rfl⟩
  | cons other front ih =>
    rw [List.map_cons, contextAfter, List.cons_append, segmentsFrom]
    by_cases hCuts : context.cuts (token other)
    · -- The first segment is complete, and the item is looked for in the others.
      rw [if_pos hCuts, if_pos hCuts]
      obtain ⟨hEnds, hLies⟩ := ih Context.empty
      exact ⟨fun h => (hEnds h).cut other, fun h => (hLies h).cut other⟩
    · rw [if_neg hCuts, if_neg hCuts]
      obtain ⟨hEnds, hLies⟩ := ih (context.feed rules (token other))
      exact ⟨fun h => (hEnds h).push other, fun h => (hLies h).push other⟩

/-- A terminator that is found outside of blocks is the terminator of a segment. -/
theorem segments_endsAfter {front : List α} {item : α} (back : List α)
    (h : (contextAfter rules Context.empty (front.map token)).cuts (token item)) :
    EndsAfter front item (segments rules token (front ++ item :: back)) :=
  (segmentsFrom_located rules token Context.empty front item back).1 h

/-- Every other token is in a segment. -/
theorem segments_liesAfter {front : List α} {item : α} (back : List α)
    (h : ¬ (contextAfter rules Context.empty (front.map token)).cuts (token item)) :
    LiesAfter front item (segments rules token (front ++ item :: back)) :=
  (segmentsFrom_located rules token Context.empty front item back).2 h

end Segments

/-! ## The report on a segment -/

/-- The position of the first token other than blanks and comments. -/
def opening (tokens : List Token) : Option Position :=
  (tokens.find? fun token => !token.isTrivia).map Token.start

namespace Segment

variable (rules : Rules) (script : List Char) (segment : Segment Token)

/-- The context at the end of a segment. -/
def context : Context := Context.empty.feedAll rules segment.items

/-- The characters of a script from a position up to the end of a segment. -/
def piece (first : Position) : List Char :=
  match segment.terminator with
  | some mark => textBetween script first mark.start
  | none => (placeOf script first).rest

/-- The statement that a segment makes, if it makes one. -/
def statement : Option Statement :=
  (opening segment.items).bind fun first =>
    Statement.ofPiece (segment.piece script first) first (segment.context rules)
      segment.terminator.isSome

/-- The position and the depth of the blocks that a script ends in. -/
def unclosed : Option (Position × Nat) :=
  if segment.terminator = none ∧ (segment.context rules).depth ≠ 0 then
    (opening segment.items).map fun first => (first, (segment.context rules).depth)
  else none

/-- The report on a segment, given the statement that it makes. -/
def reportWith (statement : Option Statement) : Report where
  statements := statement.toArray
  diagnostics := (segment.context rules).pending ++
    ((segment.unclosed rules).map fun place => Diagnostic.unclosedBlock place.1 place.2).toArray
  events := Context.empty.eventsAll rules segment.items ++
    ((segment.unclosed rules).map fun place => Event.openAtEnd place.1 place.2).toArray ++
    (statement.map Statement.event).toArray

/-- The report on a segment. -/
def report : Report := segment.reportWith rules (segment.statement rules script)

end Segment

/-- Reports in sequence. -/
def Report.concat (reports : List Report) : Report := reports.foldr Report.append Report.empty

@[simp] theorem Report.concat_nil : concat [] = empty := rfl

@[simp] theorem Report.concat_cons (first : Report) (rest : List Report) :
    concat (first :: rest) = first ++ concat rest := rfl

/-- Reports in sequence can be put in order in any groups. -/
theorem Report.concat_append (first second : List Report) :
    concat (first ++ second) = concat first ++ concat second := by
  induction first with
  | nil => simp
  | cons report rest ih => rw [List.cons_append, concat_cons, ih, concat_cons, append_assoc]

/-- Reports in sequence list the statements of each, where each has at most one. -/
theorem Report.statements_concat {α : Type} (items : List α) (f : α → Report)
    (g : α → Option Statement) (h : ∀ item, (f item).statements = (g item).toArray) :
    (concat (items.map f)).statements.toList = items.filterMap g := by
  induction items with
  | nil => rfl
  | cons item rest ih =>
    rw [List.map_cons, concat_cons, append_def, Array.toList_append, ih, h item,
      List.filterMap_cons]
    cases g item <;> rfl

/-- Reports in sequence list the diagnostics of each. -/
theorem Report.diagnostics_concat {α : Type} (items : List α) (f : α → Report) :
    (concat (items.map f)).diagnostics.toList =
      items.flatMap fun item => (f item).diagnostics.toList := by
  induction items with
  | nil => rfl
  | cons item rest ih =>
    rw [List.map_cons, concat_cons, append_def, Array.toList_append, ih, List.flatMap_cons]

/-! ## Runs along a segment -/

namespace Splitter

variable {rules : Rules}

@[simp] theorem context_ofString (script : String) : (ofString script).context = .empty := rfl

/-- A cut starts a new context, and any other token goes to the one that there is. -/
theorem context_step (rules : Rules) (splitter : Splitter) (token : Token) :
    (splitter.step rules token).1.context =
      if splitter.context.cuts token then Context.empty
      else splitter.context.feed rules token := by
  by_cases hCuts : splitter.context.cuts token
  · rw [step_of_cuts hCuts, if_pos hCuts, toDraft_cut]
    rfl
  · rw [step_of_not_cuts hCuts, if_neg hCuts]
    rfl

/-- The context of a splitter follows its tokens alone. -/
theorem context_run (splitter : Splitter) (tokens : List Token) :
    (splitter.run rules tokens).1.context = contextAfter rules splitter.context tokens := by
  induction tokens generalizing splitter with
  | nil => rfl
  | cons token rest ih =>
    rw [run_cons, ih, context_step]
    rfl

end Splitter

/-- A splitter that has gone through the front of a script cuts at the mark. -/
def CutAfter (rules : Rules) (script : String) (front : List Token) (mark : Token) : Prop :=
  ((Splitter.ofString script).run rules front).1.context.cuts mark

instance (rules : Rules) (script : String) (front : List Token) (mark : Token) :
    Decidable (CutAfter rules script front mark) :=
  inferInstanceAs (Decidable (Context.cuts _ mark))

/-- The tokens end with a terminator that is cut at. -/
def CutLast (rules : Rules) (script : String) (tokens : List Token) : Prop :=
  ∃ front mark, tokens = front ++ [mark] ∧ CutAfter rules script front mark

/-- Where a splitter cuts follows from the tokens alone. -/
theorem cutAfter_iff {rules : Rules} {script : String} {front : List Token} {mark : Token} :
    CutAfter rules script front mark ↔
      (contextAfter rules Context.empty front).cuts mark := by
  unfold CutAfter
  rw [Splitter.context_run, Splitter.context_ofString]

namespace Splitter

variable {rules : Rules}

/-- A statement starts at the first token that is no trivia, whether or not that was found before.
-/
theorem opening_cons (token : Token) (rest : List Token) (start : Option Position) :
    start.or (opening (token :: rest)) =
      (if token.isTrivia then start else start.or (some token.start)).or (opening rest) := by
  cases hTrivia : token.isTrivia <;> cases start <;> simp [opening, hTrivia]

/-- A run without a cut only follows the context. -/
theorem run_uncut {splitter : Splitter} {tokens : List Token}
    (h : splitter.context.Uncut rules tokens) :
    splitter.run rules tokens =
      (⟨⟨splitter.context.feedAll rules tokens, splitter.start.or (opening tokens)⟩,
          splitter.locator⟩,
        ⟨#[], #[], splitter.context.eventsAll rules tokens⟩) := by
  induction tokens generalizing splitter with
  | nil => simp [opening, Context.eventsAll, Report.empty]
  | cons token rest ih =>
    obtain ⟨hToken, hRest⟩ := h
    rw [run_cons, step_of_not_cuts hToken, ih (by exact hRest), opening_cons]
    simp [advance, Draft.feed, Draft.reportToken, Report.append_def, Context.eventsAll]

/-- A new splitter comes to the context of the tokens and the place where they start. -/
theorem run_fresh {locator : Locator} {tokens : List Token}
    (h : Context.empty.Uncut rules tokens) :
    (fresh locator).run rules tokens =
      (⟨⟨Context.empty.feedAll rules tokens, opening tokens⟩, locator⟩,
        ⟨#[], #[], Context.empty.eventsAll rules tokens⟩) := by
  rw [run_uncut h]
  simp [fresh, Draft.empty]

/-- A statement starts at one of its tokens. -/
theorem one_le_column_of_opening {tokens : List Token} {first : Position}
    (hColumns : ∀ token ∈ tokens, 1 ≤ token.start.column) (h : opening tokens = some first) :
    1 ≤ first.column := by
  obtain ⟨token, hFind, rfl⟩ := Option.map_eq_some_iff.mp h
  exact hColumns token (List.mem_of_find?_eq_some hFind)

/-- A run over a segment without a terminator ends in the report on it. -/
theorem complete_fresh_uncut {locator : Locator} {script : List Char} {tokens : List Token}
    (hSound : locator.Sound script) (hColumns : ∀ token ∈ tokens, 1 ≤ token.start.column)
    (h : Context.empty.Uncut rules tokens) :
    (fresh locator).complete rules tokens =
      (⟨tokens, none⟩ : Segment Token).report rules script := by
  unfold complete
  simp only [run_fresh h, finish]
  -- Trivia alone is reported as such. Otherwise the text goes from the opening to the end of the
  -- script.
  cases hOpening : opening tokens with
  | none =>
    simp [Draft.reportBlank, Segment.report, Segment.reportWith, Segment.statement,
      Segment.unclosed, Segment.context, hOpening, Report.append_def]
  | some first =>
    have hPiece := Locator.sliceFrom_eq hSound (one_le_column_of_opening hColumns hOpening)
    simp only [hPiece, Draft.reportLast]
    split
    · next hDepth =>
      simp [Segment.report, Segment.reportWith, Segment.statement, Segment.unclosed,
        Segment.context, Segment.piece, hOpening, hDepth, Report.append_def, Report.ofStatement]
    · next hDepth =>
      simp [Segment.report, Segment.reportWith, Segment.statement, Segment.unclosed,
        Segment.context, Segment.piece, hOpening, hDepth, Report.append_def, Report.ofStatement]

/-- The cut at the end of a segment makes the rest of the report on it. -/
theorem cut_eq (rules : Rules) {locator : Locator} {script : List Char} {body : List Token}
    {mark : Token} (hSound : locator.Sound script)
    (hColumns : ∀ token ∈ body, 1 ≤ token.start.column) (hMark : 1 ≤ mark.start.column) :
    ∃ locator' : Locator, locator'.Sound script ∧
      (⟨⟨Context.empty.feedAll rules body, opening body⟩, locator⟩ : Splitter).cut mark.start =
        (fresh locator',
          ⟨((⟨body, some mark⟩ : Segment Token).statement rules script).toArray,
            (Context.empty.feedAll rules body).pending,
            (((⟨body, some mark⟩ : Segment Token).statement rules script).map
              Statement.event).toArray⟩) := by
  unfold cut
  -- Where there is no opening the cursor stays, and otherwise it moves and stays sound.
  cases hOpening : opening body with
  | none =>
    refine ⟨locator, hSound, ?_⟩
    simp [Segment.statement, hOpening, Draft.reportBlank]
  | some first =>
    obtain ⟨hPiece, hSound'⟩ :=
      Locator.slice_eq hSound (one_le_column_of_opening hColumns hOpening) hMark
    refine ⟨(locator.slice first mark.start).2, hSound', ?_⟩
    simp [Segment.statement, Segment.piece, Segment.context, hOpening, hPiece, Draft.reportCut,
      Report.ofStatement]

/-- A run over a segment with a terminator makes the report on it and goes on behind it. -/
theorem complete_fresh_cut {locator : Locator} {script : List Char} {body : List Token}
    {mark : Token} (hSound : locator.Sound script)
    (hColumns : ∀ token ∈ body, 1 ≤ token.start.column) (hMark : 1 ≤ mark.start.column)
    (h : Cut rules body mark) (rest : List Token) :
    ∃ locator' : Locator, locator'.Sound script ∧
      (fresh locator).complete rules (body ++ mark :: rest) =
        (⟨body, some mark⟩ : Segment Token).report rules script ++
          (fresh locator').complete rules rest := by
  obtain ⟨locator', hSound', hCut⟩ := cut_eq rules hSound hColumns hMark
  refine ⟨locator', hSound', ?_⟩
  have hStep : (⟨⟨Context.empty.feedAll rules body, opening body⟩, locator⟩ : Splitter).step rules
      mark = _ := step_of_cuts h.cuts
  rw [hCut] at hStep
  unfold complete
  rw [run_append, run_fresh h.uncut, run_cons]
  simp only [hStep]
  simp [Segment.report, Segment.reportWith, Segment.unclosed, Segment.context,
    Report.append_def, Array.append_assoc]

end Splitter

/-- The report on a script is the sequence of the reports on its segments, whatever the tokens are,
as long as their columns are counted from 1. -/
theorem reportTokens_eq (rules : Rules) (script : String) (tokens : List Token)
    (hColumns : ∀ token ∈ tokens, 1 ≤ token.start.column) :
    reportTokens rules script tokens =
      .concat ((segments rules id tokens).map (Segment.report rules script.toList)) := by
  -- The locator is all that a segment hands to the next one, so it is what the induction
  -- generalizes over.
  have hComplete : ∀ locator : Locator, locator.Sound script.toList →
      (Splitter.fresh locator).complete rules tokens =
        .concat ((segments rules id tokens).map (Segment.report rules script.toList)) := by
    induction tokens using cut_induction rules id with
    | last tokens h =>
      intro locator hSound
      rw [List.map_id] at h
      rw [Splitter.complete_fresh_uncut hSound hColumns h, segments_uncut (by simpa using h)]
      simp
    | cut body mark rest h ih =>
      intro locator hSound
      rw [List.map_id] at h
      obtain ⟨locator', hSound', hRun⟩ := Splitter.complete_fresh_cut hSound
        (fun token hToken => hColumns token (by simp [hToken])) (hColumns mark (by simp)) h rest
      have hRest := ih (fun token hToken => hColumns token (by simp [hToken])) locator' hSound'
      rw [segments_cut (by simpa using h), hRun, hRest]
      rfl
  exact hComplete _ (Locator.sound_ofChars script.toList)

end SqlScript
