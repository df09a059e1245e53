import Mathlib.Data.List.DropRight
import SqlScript.Proofs.Split.Problems
import SqlScript.Proofs.Token.Reserved

/-!
# The log of a split

While a script is split, events are logged from three places: with every keyword, at a statement
that is cut, and at the end of a script that leaves a block open. The result is put together
separately. This module shows that the log tells the same story as the result.

What a log says is put into three relations, each between a part of the log and the part of the work
that it is about, so that the log of a script is made up of the logs of its segments:

* `Traced`  — every keyword leaves a trace, and every problem a warning right before that trace;
* `Counted` — every statement leaves an event with the keywords and the largest depth that have
  been traced since the last one;
* `Opened`  — a block without an end leaves a warning right before the last event.

The first one holds of any parts of a statement (`Traced.append`). The counts of a statement start
over behind the one before it, so the second is about whole segments (`Counted.append`), as is the
third.

## Results

* `split_told` — a script that can be split has a log that tells of its keywords, its statements and
  its problems.
-/

namespace SqlScript

/-! ## What events are about -/

namespace Event

/-- The event is the effect of a keyword. -/
def isTrace (event : Event) : Bool := event.level = .trace

/-- The event is a statement that was cut. -/
def isCut (event : Event) : Bool := event.level = .debug

/-- The block depth that a keyword leads to. -/
def tracedDepth : Event → Option Nat
  | adjusted _ _ depth => some depth
  | _ => none

/-- The place of a close where nothing is open. -/
def underflowPlace : Event → Option Position
  | underflow position _ => some position
  | _ => none

/-- The place of a block that a script ends in, and its depth. -/
def openPlace : Event → Option (Position × Nat)
  | openAtEnd position depth => some (position, depth)
  | _ => none

end Event

namespace Diagnostic

/-- The place of a close where nothing is open. -/
def unmatchedPlace : Diagnostic → Option Position
  | unmatchedEnd position => some position
  | unclosedBlock _ _ => none

/-- The place of a block that a script ends in, and its depth. -/
def openPlace : Diagnostic → Option (Position × Nat)
  | unmatchedEnd _ => none
  | unclosedBlock position depth => some (position, depth)

end Diagnostic

/-- What is logged of a keyword, whose text is in upper case. -/
def Moment.event (rules : Rules) (moment : Moment) : Event :=
  .adjusted moment.token.text (moment.delta rules) (moment.depthAfter rules)

/-- The moments of the keywords. -/
def keywordMoments (moments : List Moment) : List Moment :=
  moments.filter fun moment => moment.token.isKeyword

/-- The depths that are traced since a statement was cut last. -/
def depthsSinceCut (events : List Event) : List Nat :=
  (events.rtakeWhile fun event => !event.isCut).filterMap Event.tracedDepth

/-! ## What a log tells -/

/-- Each keyword leaves a trace. A problem leaves a warning, which stands right before the trace of
the keyword that is the problem. -/
structure Traced (rules : Rules) (moments : List Moment) (problems : List Diagnostic)
    (events : List Event) : Prop where
  traces : events.filter Event.isTrace = (keywordMoments moments).map (Moment.event rules)
  warnings : events.filterMap Event.underflowPlace = problems.filterMap Diagnostic.unmatchedPlace
  /-- The trace behind a warning is that of the next keyword, whose place the warning gives. -/
  followed : ∀ front place keyword back, events = front ++ .underflow place keyword :: back →
    ∃ moment, (keywordMoments moments)[(front.filter Event.isTrace).length]? = some moment ∧
      moment.token.start = place ∧ moment.token.text = keyword ∧
      back.head? = some (.adjusted keyword .closes 0)

/-- Each statement leaves an event, which gives the number of keywords and the largest block depth
since the event before. -/
structure Counted (statements : List Statement) (events : List Event) : Prop where
  cuts : events.filter Event.isCut = statements.map Statement.event
  counts : ∀ front line keywords maxDepth back,
    events = front ++ .cut line keywords maxDepth :: back →
      keywords = (depthsSinceCut front).length ∧ maxDepth = (depthsSinceCut front).foldl max 0

/-- A block that is open at the end leaves a warning, right before the event of the last
statement. -/
structure Opened (problems : List Diagnostic) (events : List Event) : Prop where
  warnings : events.filterMap Event.openPlace = problems.filterMap Diagnostic.openPlace
  last : ∀ front place depth back, events = front ++ .openAtEnd place depth :: back →
    ∃ line keywords maxDepth, back = [.cut line keywords maxDepth]

/-- The log of a report tells of the keywords of the script, of its statements and of its
problems. -/
structure Told (rules : Rules) (tokens : List Token) (told : Report) : Prop where
  /-- The keywords that are traced are those of the script. -/
  keywords : (keywordMoments (moments rules Context.empty tokens)).map Moment.token =
    tokens.filter Token.isKeyword
  traced : Traced rules (moments rules Context.empty tokens) told.diagnostics.toList
    told.events.toList
  counted : Counted told.statements.toList told.events.toList
  opened : Opened told.diagnostics.toList told.events.toList

/-! ## Logs in parts -/

/-- A place in two lists is in the first or in the second. -/
theorem append_eq_append_cons {α : Type} {first second front back : List α} {item : α}
    (h : first ++ second = front ++ item :: back) :
    (∃ later, first = front ++ item :: later ∧ back = later ++ second) ∨
      ∃ before, front = first ++ before ∧ second = before ++ item :: back := by
  obtain ⟨before, hFront, hSecond⟩ | ⟨later, hFirst, hBack⟩ := List.append_eq_append_iff.mp h
  · exact .inr ⟨before, hFront, hSecond⟩
  · cases later with
    | nil =>
      rw [List.append_nil] at hFirst
      exact .inr ⟨[], by rw [hFirst, List.append_nil], hBack.symm⟩
    | cons other later =>
      obtain ⟨rfl, hRest⟩ := List.cons.inj hBack
      exact .inl ⟨later, hFirst, hRest⟩

theorem keywordMoments_append (first second : List Moment) :
    keywordMoments (first ++ second) = keywordMoments first ++ keywordMoments second :=
  List.filter_append _ _

namespace Traced

variable {rules : Rules} {first second : List Moment} {problems others : List Diagnostic}
  {events more : List Event}

/-- A part without keywords and without problems of theirs leaves neither. -/
theorem quiet (hMoments : keywordMoments first = [])
    (hProblems : problems.filterMap Diagnostic.unmatchedPlace = [])
    (hEvents : events.filter Event.isTrace = [])
    (hWarnings : events.filterMap Event.underflowPlace = []) :
    Traced rules first problems events where
  traces := by rw [hEvents, hMoments, List.map_nil]
  warnings := by rw [hWarnings, hProblems]
  followed := by
    intro front place keyword back hFront
    rw [hFront, List.filterMap_append, List.filterMap_cons] at hWarnings
    simp [Event.underflowPlace] at hWarnings

theorem append (h : Traced rules first problems events) (h' : Traced rules second others more) :
    Traced rules (first ++ second) (problems ++ others) (events ++ more) where
  traces := by
    rw [List.filter_append, h.traces, h'.traces, keywordMoments_append, List.map_append]
  warnings := by rw [List.filterMap_append, h.warnings, h'.warnings, List.filterMap_append]
  followed := by
    intro front place keyword back hEvents
    rw [keywordMoments_append]
    obtain ⟨later, hFirst, rfl⟩ | ⟨before, rfl, hSecond⟩ := append_eq_append_cons hEvents
    -- The warning stands in the first part, and so does the trace behind it.
    · obtain ⟨moment, hMoment, hStart, hText, hHead⟩ := h.followed front place keyword later hFirst
      have hLength := (List.getElem?_eq_some_iff.mp hMoment).1
      refine ⟨moment, ?_, hStart, hText, ?_⟩
      · rw [List.getElem?_append_left hLength, hMoment]
      · rw [List.head?_append, hHead]
        rfl
    · obtain ⟨moment, hMoment, hRest⟩ := h'.followed before place keyword back hSecond
      refine ⟨moment, ?_, hRest⟩
      -- All keywords of the first part have left their traces.
      have hAll : (events.filter Event.isTrace).length = (keywordMoments first).length := by
        rw [h.traces, List.length_map]
      rw [List.filter_append, List.length_append, hAll, List.getElem?_append_right (by omega),
        Nat.add_sub_cancel_left, hMoment]

/-- A keyword that is no problem leaves its trace alone. -/
theorem trace {moment : Moment} (h : moment.token.isKeyword = true) :
    Traced rules [moment] [] [moment.event rules] where
  traces := by
    have hMoments : keywordMoments [moment] = [moment] := by simp [keywordMoments, h]
    rw [hMoments]
    rfl
  warnings := rfl
  followed := by
    intro front place keyword back hEvents
    cases front with
    | nil => cases hEvents
    | cons event front => simp at hEvents

/-- A stray leaves a warning in front of its trace. -/
theorem warned {moment : Moment} (h : moment.token.isKeyword = true)
    (hStray : moment.delta rules = .closes ∧ moment.context.depth = 0) :
    Traced rules [moment] [.unmatchedEnd moment.token.start]
      [.underflow moment.token.start moment.token.text, moment.event rules] := by
  have hMoments : keywordMoments [moment] = [moment] := by simp [keywordMoments, h]
  have hEvent : moment.event rules = .adjusted moment.token.text .closes 0 := by
    unfold Moment.event Moment.depthAfter
    rw [hStray.1, hStray.2]
    rfl
  refine ⟨?_, rfl, ?_⟩
  · rw [hMoments, List.map_singleton, hEvent]
    rfl
  · intro front place keyword back hEvents
    -- The warning is the first of the two events.
    cases front with
    | nil =>
      obtain ⟨hWarning, rfl⟩ := List.cons.inj hEvents
      cases hWarning
      refine ⟨moment, ?_, rfl, rfl, ?_⟩
      · rw [hMoments]
        rfl
      · rw [hEvent]
        rfl
    | cons event front =>
      obtain ⟨-, hRest⟩ := List.cons.inj hEvents
      cases front with
      | nil => cases hRest
      | cons other front => simp at hRest

/-- One token leaves its trace and perhaps a warning. -/
theorem single (rules : Rules) (context : Context) {token : Token}
    (hUpper : token.isKeyword = true → upper token.text = token.text) :
    Traced rules [⟨context, token⟩]
      (if context.delta rules token = .closes ∧ context.depth = 0 then
        [.unmatchedEnd token.start] else [])
      (context.events rules token).toList := by
  -- Only a keyword is logged, and its warning comes in front of its trace.
  cases hKeyword : token.isKeyword with
  | false =>
    have hNeutral := (context.feed_of_not_keyword rules token hKeyword).2
    have hEvents : context.events rules token = #[] := if_neg (by simp [hKeyword])
    rw [hEvents, hNeutral, if_neg (by simp)]
    exact quiet (by simp [keywordMoments, hKeyword]) rfl rfl rfl
  | true =>
    have hEvents : context.events rules token = _ := if_pos hKeyword
    rw [hUpper hKeyword] at hEvents
    by_cases hStray : context.delta rules token = .closes ∧ context.depth = 0
    · have hUnderflow : context.underflows (context.delta rules token) = true :=
        decide_eq_true hStray
      rw [if_pos hUnderflow] at hEvents
      rw [hEvents, if_pos hStray]
      exact @warned rules ⟨context, token⟩ hKeyword hStray
    · have hNoUnderflow : ¬ context.underflows (context.delta rules token) = true :=
        fun hUnderflow => hStray (of_decide_eq_true hUnderflow)
      rw [if_neg hNoUnderflow] at hEvents
      rw [hEvents, if_neg hStray]
      exact @trace rules ⟨context, token⟩ hKeyword

/-- The tokens of a statement leave their traces, and each stray a warning. -/
theorem of_uncut {context : Context} {tokens : List Token} (h : context.Uncut rules tokens)
    (hUpper : ∀ token ∈ tokens, token.isKeyword = true → upper token.text = token.text) :
    Traced rules (moments rules context tokens)
      ((strays rules context tokens).map fun token => .unmatchedEnd token.start)
      (context.eventsAll rules tokens).toList := by
  -- One token and then the rest, from the context that it leaves.
  induction tokens generalizing context with
  | nil => exact quiet rfl rfl rfl rfl
  | cons token rest ih =>
    obtain ⟨hToken, hRest⟩ := h
    have hNext : context.next rules token = context.feed rules token := if_neg hToken
    have hFirst := single rules context (hUpper token List.mem_cons_self)
    have hLater := ih hRest fun later hLater => hUpper later (List.mem_cons_of_mem _ hLater)
    have hBoth := hFirst.append hLater
    rw [strays_cons, moments, hNext, List.map_append, Context.eventsAll, Array.toList_append,
      apply_ite (List.map _)]
    exact hBoth

end Traced

/-! ## The counts of a statement -/

/-- A log that is empty or ends with a statement that was cut. -/
def AtCut (events : List Event) : Prop := ∀ event ∈ events.getLast?, event.isCut = true

/-- What is counted starts over after a statement. -/
theorem depthsSinceCut_append {events : List Event} (h : AtCut events) (more : List Event) :
    depthsSinceCut (events ++ more) = depthsSinceCut more := by
  unfold depthsSinceCut
  congr 1
  -- Counted from the end, the events go on to the statement that ends the first part.
  induction more using List.reverseRecOn with
  | nil =>
    rw [List.append_nil, List.rtakeWhile_nil, List.rtakeWhile_eq_nil_iff]
    intro hNe
    have hLast := h _ (List.getLast?_eq_some_getLast hNe)
    simp [hLast]
  | append_singleton more event ih =>
    rw [← List.append_assoc, List.rtakeWhile_concat, List.rtakeWhile_concat, ih]

/-- Where no statement was cut everything is counted. -/
theorem depthsSinceCut_of_uncut {events : List Event} (h : events.filter Event.isCut = []) :
    depthsSinceCut events = events.filterMap Event.tracedDepth := by
  unfold depthsSinceCut
  congr 1
  rw [List.rtakeWhile_eq_self_iff]
  intro event hEvent
  have hNot := List.filter_eq_nil_iff.mp h event hEvent
  simpa using hNot

theorem Counted.nil : Counted [] [] where
  cuts := rfl
  counts := by
    intro front line keywords maxDepth back hFront
    simp at hFront

theorem Counted.append {statements others : List Statement} {events more : List Event}
    (h : Counted statements events) (hCut : AtCut events) (h' : Counted others more) :
    Counted (statements ++ others) (events ++ more) where
  cuts := by rw [List.filter_append, h.cuts, h'.cuts, List.map_append]
  counts := by
    intro front line keywords maxDepth back hEvents
    obtain ⟨later, hFirst, -⟩ | ⟨before, rfl, hSecond⟩ := append_eq_append_cons hEvents
    · exact h.counts front line keywords maxDepth later hFirst
    · rw [depthsSinceCut_append hCut]
      exact h'.counts before line keywords maxDepth back hSecond

/-- A statement counts what has been traced in front of its event. -/
theorem Counted.of_body {statement : Statement} {body : List Event}
    (hUncut : body.filter Event.isCut = [])
    (hCount : statement.keywordCount = (body.filterMap Event.tracedDepth).length)
    (hDepth : statement.maxDepth = (body.filterMap Event.tracedDepth).foldl max 0) :
    Counted [statement] (body ++ [statement.event]) where
  cuts := by
    rw [List.filter_append, hUncut]
    rfl
  counts := by
    intro front line keywords maxDepth back hEvents
    obtain ⟨later, hBody, -⟩ | ⟨before, rfl, hLast⟩ := append_eq_append_cons hEvents
    · -- No statement is cut before the end of the segment.
      rw [hBody, List.filter_append, List.filter_cons] at hUncut
      simp [Event.isCut, Event.level] at hUncut
    · cases before with
      | cons event before => simp at hLast
      | nil =>
        obtain ⟨hEvent, -⟩ := List.cons.inj hLast
        cases hEvent
        rw [List.append_nil, depthsSinceCut_of_uncut hUncut]
        exact ⟨hCount, hDepth⟩

theorem atCut_append_event (statement : Statement) (body : List Event) :
    AtCut (body ++ [statement.event]) := by
  intro event hEvent
  rw [List.getLast?_concat, Option.mem_some_iff] at hEvent
  rw [← hEvent]
  rfl

namespace Context

variable (rules : Rules) (context : Context)

theorem tracedDepths_events (token : Token) :
    (context.events rules token).toList.filterMap Event.tracedDepth =
      if token.isKeyword then [(context.delta rules token).apply context.depth] else [] := by
  unfold events
  cases hKeyword : token.isKeyword with
  | false => rfl
  | true =>
    dsimp only
    rw [if_pos rfl, if_pos rfl]
    split <;> rfl

/-- The depths of a context are those that are traced. -/
theorem trace_feedAll (tokens : List Token) :
    (context.feedAll rules tokens).trace.toList = context.trace.toList ++
      (context.eventsAll rules tokens).toList.filterMap Event.tracedDepth := by
  induction tokens generalizing context with
  | nil => simp [eventsAll]
  | cons token rest ih =>
    rw [feedAll_cons, ih, trace_feed, eventsAll, Array.toList_append, List.filterMap_append,
      tracedDepths_events, List.append_assoc]

theorem maxDepth_feedAll (tokens : List Token) :
    (context.feedAll rules tokens).maxDepth =
      ((context.eventsAll rules tokens).toList.filterMap Event.tracedDepth).foldl max
        context.maxDepth := by
  induction tokens generalizing context with
  | nil => rfl
  | cons token rest ih =>
    rw [feedAll_cons, ih, eventsAll, Array.toList_append, List.filterMap_append,
      tracedDepths_events, List.foldl_append]
    congr 1
    cases hKeyword : token.isKeyword with
    | false => rw [(context.feed_of_not_keyword rules token hKeyword).1]; rfl
    | true => rw [context.feed_of_keyword rules token hKeyword]; rfl

/-- With a token no statement is cut, and the script does not end. -/
theorem eventsAll_silent (tokens : List Token) :
    (context.eventsAll rules tokens).toList.filter Event.isCut = [] ∧
      (context.eventsAll rules tokens).toList.filterMap Event.openPlace = [] := by
  induction tokens generalizing context with
  | nil => exact ⟨rfl, rfl⟩
  | cons token rest ih =>
    obtain ⟨hCut, hOpen⟩ := ih (context.feed rules token)
    -- A token is logged as a warning and a trace at most, and neither is a cut nor a place.
    have hToken : (context.events rules token).toList.filter Event.isCut = [] ∧
        (context.events rules token).toList.filterMap Event.openPlace = [] := by
      unfold events
      dsimp only
      split
      · split <;> exact ⟨rfl, rfl⟩
      · exact ⟨rfl, rfl⟩
    rw [eventsAll, Array.toList_append, List.filter_append, List.filterMap_append, hCut, hOpen,
      hToken.1, hToken.2]
    exact ⟨rfl, rfl⟩

/-- Other tokens than keywords leave nothing. -/
theorem eventsAll_of_not_keyword {tokens : List Token}
    (h : ∀ token ∈ tokens, token.isKeyword = false) : context.eventsAll rules tokens = #[] := by
  induction tokens generalizing context with
  | nil => rfl
  | cons token rest ih =>
    have hToken : context.events rules token = #[] := if_neg (by simp [h token])
    rw [eventsAll, hToken, Array.empty_append]
    exact ih _ fun later hLater => h later (List.mem_cons_of_mem _ hLater)

end Context

/-! ## The log of a segment -/

namespace Segment

variable {rules : Rules} {script : List Char} {segment : Segment Token}

theorem events_report (rules : Rules) (script : List Char) (segment : Segment Token) :
    (segment.report rules script).events.toList =
      (Context.empty.eventsAll rules segment.items).toList ++
        ((segment.unclosed rules).map fun place => Event.openAtEnd place.1 place.2).toList ++
        ((segment.statement rules script).map Statement.event).toList := by
  simp [report, reportWith]

theorem diagnostics_report (rules : Rules) (script : List Char) {segment : Segment Token}
    (h : Context.empty.Uncut rules segment.items) :
    (segment.report rules script).diagnostics.toList =
      ((strays rules Context.empty segment.items).map fun token => .unmatchedEnd token.start) ++
        ((segment.unclosed rules).map fun place =>
          Diagnostic.unclosedBlock place.1 place.2).toList := by
  have hPending : (segment.context rules).pending.toList = _ := Context.pending_feedAll rules h
  rw [report, reportWith, Array.toList_append, hPending]
  simp [Context.empty]

/-- The keywords of a segment are traced. -/
theorem traced (h : Context.empty.Uncut rules segment.items)
    (hUpper : ∀ token ∈ segment.items, token.isKeyword = true → upper token.text = token.text) :
    Traced rules (moments rules Context.empty segment.items)
      (segment.report rules script).diagnostics.toList
      (segment.report rules script).events.toList := by
  rw [events_report, diagnostics_report rules script h, List.append_assoc,
    ← List.append_nil (moments _ _ _)]
  -- The end of a segment is no keyword, so it leaves no trace.
  refine (Traced.of_uncut h hUpper).append (Traced.quiet rfl ?_ ?_ ?_)
  · cases segment.unclosed rules <;> rfl
  · cases segment.unclosed rules <;> cases segment.statement rules script <;> rfl
  · cases segment.unclosed rules <;> cases segment.statement rules script <;> rfl

/-- A segment without a statement leaves no log. -/
theorem events_of_statement_eq_none
    (hMakes : (segment.statement rules script).isSome = true ↔
      ∃ token ∈ segment.items, token.isTrivia = false)
    (hNone : segment.statement rules script = none) :
    (segment.report rules script).events.toList = [] := by
  -- What makes no statement is trivia, so there is no keyword that could have opened a block.
  have hTrivia : ∀ token ∈ segment.items, token.isKeyword = false := by
    intro token hToken
    by_contra hKeyword
    have hSolid : token.isTrivia = false := by
      by_contra hTrivia
      exact hKeyword (Token.isKeyword_of_isTrivia (by simpa using hTrivia))
    have hSome := hMakes.mpr ⟨token, hToken, hSolid⟩
    rw [hNone] at hSome
    cases hSome
  have hDepth : (segment.context rules).depth = 0 := by
    rw [context, Context.feedAll_of_not_keyword _ _ hTrivia]
    rfl
  have hUnclosed : segment.unclosed rules = none := if_neg fun h => h.2 hDepth
  rw [events_report, Context.eventsAll_of_not_keyword _ _ hTrivia, hUnclosed, hNone]
  rfl

/-- The keywords of a segment are counted with its statement, which comes last. -/
theorem counted (hMakes : (segment.statement rules script).isSome = true ↔
      ∃ token ∈ segment.items, token.isTrivia = false) :
    Counted (segment.statement rules script).toList
        (segment.report rules script).events.toList ∧
      AtCut (segment.report rules script).events.toList := by
  cases hStatement : segment.statement rules script with
  | none =>
    rw [events_of_statement_eq_none hMakes hStatement]
    exact ⟨Counted.nil, nofun⟩
  | some statement =>
    obtain ⟨-, hCount, hDepth, -⟩ := of_mem_statement hStatement
    obtain ⟨hCuts, -⟩ := Context.empty.eventsAll_silent rules segment.items
    have hEvents := events_report rules script segment
    rw [hStatement, Option.map_some, Option.toList_some] at hEvents
    generalize hBody : (Context.empty.eventsAll rules segment.items).toList ++
      ((segment.unclosed rules).map fun place =>
        Event.openAtEnd place.1 place.2).toList = body at hEvents
    -- Keywords and open blocks cut no statement, and the keywords leave their depths.
    have hUncut : body.filter Event.isCut = [] := by
      rw [← hBody, List.filter_append, hCuts]
      cases segment.unclosed rules <;> rfl
    have hTraced : body.filterMap Event.tracedDepth = (segment.context rules).trace.toList := by
      rw [← hBody, List.filterMap_append, context, Context.trace_feedAll]
      cases segment.unclosed rules <;> simp [Context.empty, Context.trace, Event.tracedDepth]
    have hMax : (segment.context rules).maxDepth =
        (segment.context rules).trace.toList.foldl max 0 := by
      rw [context, Context.maxDepth_feedAll, Context.trace_feedAll]
      simp [Context.empty, Context.trace]
    rw [hEvents]
    refine ⟨Counted.of_body hUncut ?_ ?_, atCut_append_event statement body⟩
    · rw [hCount, hTraced]
      simp [Context.trace]
    · rw [hDepth, hTraced, hMax]

/-- A segment that is ended leaves no block open. -/
theorem openPlaces_of_ended (script : List Char) (h : Context.empty.Uncut rules segment.items)
    (hUnclosed : segment.unclosed rules = none) :
    (segment.report rules script).diagnostics.toList.filterMap Diagnostic.openPlace = [] ∧
      (segment.report rules script).events.toList.filterMap Event.openPlace = [] := by
  obtain ⟨-, hOpen⟩ := Context.empty.eventsAll_silent rules segment.items
  constructor
  · rw [diagnostics_report rules script h, hUnclosed]
    simp [Diagnostic.openPlace, List.filterMap_map, Function.comp_def]
  · rw [events_report, hUnclosed, List.filterMap_append, List.filterMap_append, hOpen]
    cases segment.statement rules script <;> rfl

end Segment

theorem Opened.of_none {problems : List Diagnostic} {events : List Event}
    (hProblems : problems.filterMap Diagnostic.openPlace = [])
    (hEvents : events.filterMap Event.openPlace = []) : Opened problems events where
  warnings := by rw [hProblems, hEvents]
  last := by
    intro front place depth back hFront
    rw [hFront, List.filterMap_append, List.filterMap_cons] at hEvents
    simp [Event.openPlace] at hEvents

/-- An open block leaves its warning in front of the event of its statement. -/
theorem Opened.pair (place : Position) (depth : Nat) (statement : Statement) :
    Opened [.unclosedBlock place depth] [.openAtEnd place depth, statement.event] where
  warnings := rfl
  last := by
    intro front other otherDepth back hEvents
    cases front with
    | nil =>
      -- The place is the first of two events, and the cut stands directly behind it.
      obtain ⟨-, rfl⟩ := List.cons.inj hEvents
      exact ⟨_, _, _, rfl⟩
    | cons event front =>
      obtain ⟨-, hRest⟩ := List.cons.inj hEvents
      cases front with
      | nil => cases hRest
      | cons event front => simp at hRest

/-- Behind segments that leave no block open only the last one has to be looked at. -/
theorem Opened.append {problems others : List Diagnostic} {events more : List Event}
    (hProblems : problems.filterMap Diagnostic.openPlace = [])
    (hEvents : events.filterMap Event.openPlace = []) (h : Opened others more) :
    Opened (problems ++ others) (events ++ more) where
  warnings := by
    rw [List.filterMap_append, List.filterMap_append, hEvents, hProblems, h.warnings]
  last := by
    intro front place depth back hFront
    obtain ⟨later, hFirst, -⟩ | ⟨before, rfl, hSecond⟩ := append_eq_append_cons hFront
    · rw [hFirst, List.filterMap_append, List.filterMap_cons] at hEvents
      simp [Event.openPlace] at hEvents
    · exact h.last before place depth back hSecond

/-- A segment that leaves a block open has a statement, whose event comes last. -/
theorem Segment.opened {rules : Rules} {script : List Char} {segment : Segment Token}
    (h : Context.empty.Uncut rules segment.items)
    (hMakes : (segment.statement rules script).isSome = true ↔
      ∃ token ∈ segment.items, token.isTrivia = false) :
    Opened (segment.report rules script).diagnostics.toList
      (segment.report rules script).events.toList := by
  cases hUnclosed : segment.unclosed rules with
  | none =>
    obtain ⟨hProblems, hEvents⟩ := openPlaces_of_ended script h hUnclosed
    exact Opened.of_none hProblems hEvents
  | some place =>
    -- Only an open block keeps a segment unclosed, and a keyword has opened it.
    have hDepth : (segment.context rules).depth ≠ 0 := by
      intro hZero
      have hNone : segment.unclosed rules = none := if_neg fun hOpen => hOpen.2 hZero
      rw [hNone] at hUnclosed
      cases hUnclosed
    obtain ⟨statement, hStatement⟩ :=
      Option.isSome_iff_exists.mp (hMakes.mpr (exists_solid_of_depth_ne_zero rules hDepth))
    obtain ⟨-, hOpen⟩ := Context.empty.eventsAll_silent rules segment.items
    rw [diagnostics_report rules script h, events_report, hUnclosed, hStatement]
    rw [List.append_assoc]
    refine Opened.append ?_ hOpen (Opened.pair place.1 place.2 statement)
    simp [Diagnostic.openPlace, List.filterMap_map, Function.comp_def]

/-! ## The log of a script -/

/-- The keywords among some moments are those of their tokens. -/
theorem map_token_keywordMoments (rules : Rules) (context : Context) (tokens : List Token) :
    (keywordMoments (moments rules context tokens)).map Moment.token =
      tokens.filter Token.isKeyword := by
  conv_rhs => rw [← map_token_moments rules context tokens, List.filter_map]
  rfl

/-- The log of one segment tells of it. -/
theorem Segment.told {rules : Rules} {script : List Char} (segment : Segment Token)
    (h : Context.empty.Uncut rules segment.items)
    (hUpper : ∀ token ∈ segment.items, token.isKeyword = true → upper token.text = token.text)
    (hMakes : (segment.statement rules script).isSome = true ↔
      ∃ token ∈ segment.items, token.isTrivia = false) :
    Told rules segment.items (segment.report rules script) where
  keywords := map_token_keywordMoments rules Context.empty segment.items
  traced := segment.traced h hUpper
  counted := by
    have hStatements : (segment.report rules script).statements.toList =
        (segment.statement rules script).toList := by
      simp [report, reportWith]
    rw [hStatements]
    exact (segment.counted hMakes).1
  opened := segment.opened h hMakes

/-- The log of a segment that is ended stands in front of the log of the rest. -/
theorem Told.cut {rules : Rules} {script : List Char} {body rest : List Token} {mark : Token}
    {told : Report} (hCut : Cut rules body mark)
    (hUpper : ∀ token ∈ body, token.isKeyword = true → upper token.text = token.text)
    (hMakes : ((⟨body, some mark⟩ : Segment Token).statement rules script).isSome = true ↔
      ∃ token ∈ body, token.isTrivia = false)
    (h : Told rules rest told) :
    Told rules (body ++ mark :: rest)
      ((⟨body, some mark⟩ : Segment Token).report rules script ++ told) := by
  have hFirst := Segment.told ⟨body, some mark⟩ hCut.uncut hUpper hMakes
  have hUnclosed : (⟨body, some mark⟩ : Segment Token).unclosed rules = none := if_neg (by simp)
  obtain ⟨hProblems, hEvents⟩ := Segment.openPlaces_of_ended script hCut.uncut hUnclosed
  refine ⟨map_token_keywordMoments rules Context.empty _, ?traced, ?counted, ?opened⟩
  case traced =>
    -- The terminator is a token without a trace.
    have hMark : Traced rules [⟨Context.empty.feedAll rules body, mark⟩] [] [] := by
      have hKeyword := Token.isKeyword_of_isTerminator hCut.cuts.1
      exact Traced.quiet (by simp [keywordMoments, hKeyword]) rfl rfl rfl
    have hAll := hFirst.traced.append (hMark.append h.traced)
    rw [moments_cut rules hCut]
    simpa [Report.append_def] using hAll
  case counted =>
    have hAll := hFirst.counted.append (Segment.counted hMakes).2 h.counted
    simpa [Report.append_def] using hAll
  case opened =>
    have hAll := Opened.append hProblems hEvents h.opened
    simpa [Report.append_def] using hAll

/-- The logs of the segments make up the log of the script. -/
theorem told_concat {rules : Rules} {script : List Char} {tokens : List Token}
    (hUpper : ∀ token ∈ tokens, token.isKeyword = true → upper token.text = token.text)
    (hMakes : ∀ segment ∈ segments rules id tokens,
      (segment.statement rules script).isSome = true ↔
        ∃ token ∈ segment.items, token.isTrivia = false) :
    Told rules tokens (.concat ((segments rules id tokens).map (Segment.report rules script))) := by
  -- The log of the first segment stands in front of the log of the rest.
  induction tokens using cut_induction rules id with
  | last tokens h =>
    rw [segments_uncut h] at hMakes ⊢
    have hUncut : Context.empty.Uncut rules tokens := by simpa using h
    rw [List.map_singleton, Report.concat_cons, Report.concat_nil, Report.append_empty]
    exact Segment.told ⟨tokens, none⟩ hUncut hUpper (hMakes _ List.mem_cons_self)
  | cut body mark rest h ih =>
    rw [segments_cut h] at hMakes ⊢
    have hCut : Cut rules body mark := by simpa using h
    have hRest := ih (fun token hToken => hUpper token (by simp [hToken]))
      fun segment hSegment => hMakes segment (List.mem_cons_of_mem _ hSegment)
    exact hRest.cut hCut (fun token hToken => hUpper token (by simp [hToken]))
      (hMakes _ List.mem_cons_self)

/-- A script that can be split has a log that tells the same story as the split: of every keyword
with its effect, of every statement with its counts and of every problem with its place, all in
order. -/
theorem split_told {rules : Rules} {script : String} {result : Split}
    (h : split rules script = .ok result) :
    ∃ told tokens, report rules script = .ok told ∧ told.split = result ∧
      tokenize rules (dropByteOrderMark script) = .ok tokens ∧ Told rules tokens told := by
  obtain ⟨told, hReport, hResult⟩ := exists_report_of_split h
  obtain ⟨tokens, hTokens, hTold, hVerbatim⟩ := exists_tokens_of_report hReport
  refine ⟨told, tokens, hReport, hResult, hTokens, ?_⟩
  rw [hTold]
  have hUpper : ∀ token ∈ tokens, token.isKeyword = true → upper token.text = token.text :=
    fun token hToken hKeyword => (reserved_of_tokenize hTokens token hToken hKeyword).2
  exact told_concat hUpper hVerbatim.makes

/-- The log of a stray keyword in a statement of its own and a block that the script ends in. -/
theorem split_told_unclosed :
    ∃ told tokens, report Dialect.hsqldb.rules "END;BEGIN" = .ok told ∧
      told.split = ⟨#[⟨"END", ⟨1, 1⟩, 1, 0, true⟩, ⟨"BEGIN", ⟨1, 5⟩, 1, 1, false⟩],
        #[.unmatchedEnd ⟨1, 1⟩, .unclosedBlock ⟨1, 5⟩ 1]⟩ ∧
      tokenize Dialect.hsqldb.rules (dropByteOrderMark "END;BEGIN") = .ok tokens ∧
      Told Dialect.hsqldb.rules tokens told :=
  split_told split_end_begin

/-- What is logged of that script. -/
example : (reportTokens Dialect.hsqldb.rules "END;BEGIN" [⟨"END", .keyword, ⟨1, 1⟩⟩,
      ⟨";", .terminator, ⟨1, 4⟩⟩, ⟨"BEGIN", .keyword, ⟨1, 5⟩⟩]).events =
    #[.underflow ⟨1, 1⟩ "END", .adjusted "END" .closes 0, .cut 1 1 0, .adjusted "BEGIN" .opens 1,
      .openAtEnd ⟨1, 5⟩ 1, .cut 1 1 1] := by
  decide +kernel

end SqlScript
