import SqlScript.Proofs.Dialect.Objects
import SqlScript.Proofs.Split.Flat
import SqlScript.Proofs.Split.Nest

/-!
# Coarser and finer splits

With more modifiable objects a HyperSQL script is cut at more places, and in the generic dialect it
is cut at every terminator. A split that cuts less only joins statements: each statement of the
finer split lies inside one of the coarser split, and each statement of the coarser split starts
where one of the finer split does.

Both splits are made of the same lexemes, so they are compared along the `Site`s of a script, which
become tiles once the rules are known. The segments of the two splits nest
(`nests_segmentsFrom`), and a statement stands inside another if its first tile is in that segment
and its text ends in the text of that segment (`Excerpt.exists_inside`).

## Results

* `coarsens_of_nests` — if the segments of two splits nest, the one split coarsens the other.
* `split_coarsens`    — where HyperSQL cuts, it does so with more objects, and the generic dialect
  cuts everywhere; so the splits coarsen each other.
-/

namespace SqlScript

/-! ## Statements inside statements -/

/-- The statement is a part of another one. -/
def Statement.Inside (inner outer : Statement) : Prop :=
  ∃ front back, outer.text.toList = front ++ inner.text.toList ++ back ∧
    inner.start = outer.start.advanceBy front

/-- The statement lies inside exactly one of the others. -/
def InsideOne (inner : Statement) (statements : List Statement) : Prop :=
  ∃ before outer later, statements = before ++ outer :: later ∧ inner.Inside outer ∧
    ∀ other ∈ before ++ later, ¬ inner.Inside other

/-- The first statements are joined from the second ones. -/
structure Coarsens (coarse fine : List Statement) : Prop where
  inside : ∀ inner ∈ fine, InsideOne inner coarse
  starts : ∀ outer ∈ coarse, ∃ inner ∈ fine, inner.start = outer.start

section Inside

variable {inner outer : Statement} {statements : List Statement} {place : Position}

/-- What the inner statement covers, the outer one covers too. -/
theorem Statement.Inside.covers (h : inner.Inside outer) (hPlace : inner.Covers place) :
    outer.Covers place := by
  obtain ⟨front, back, hText, hStart⟩ := h
  obtain ⟨front', c, back', hInner, rfl⟩ := hPlace
  refine ⟨front ++ front', c, back' ++ back, ?_, ?_⟩
  · rw [hText, hInner]
    simp
  · rw [hStart, Position.advanceBy_append]

/-- Only one statement covers a position that is covered once. -/
theorem CoveredOnce.eq_of_covers (h : CoveredOnce statements place) (hInner : inner ∈ statements)
    (hOuter : outer ∈ statements) (hInnerPlace : inner.Covers place)
    (hOuterPlace : outer.Covers place) : inner = outer := by
  obtain ⟨before, one, later, rfl, -, hOthers⟩ := h
  -- Only the one that is listed covers the position, so both are that one.
  have hOne : ∀ statement ∈ before ++ one :: later, statement.Covers place → statement = one := by
    intro statement hMem hCovers
    by_contra hOther
    have hRest : statement ∈ before ++ later := by
      simpa [hOther] using hMem
    exact hOthers statement hRest hCovers
  rw [hOne inner hInner hInnerPlace, hOne outer hOuter hOuterPlace]

/-- A statement that covers such a position lies inside at most one other. -/
theorem CoveredOnce.insideOne (h : CoveredOnce statements place) (hPlace : inner.Covers place)
    (hOuter : outer ∈ statements) (hInside : inner.Inside outer) : InsideOne inner statements := by
  have hOnce := h
  obtain ⟨before, one, later, rfl, hOne, hOthers⟩ := hOnce
  have hSame : outer = one := h.eq_of_covers hOuter (by simp) (hInside.covers hPlace) hOne
  subst hSame
  exact ⟨before, outer, later, rfl, hInside,
    fun other hOther hOtherInside => hOthers other hOther (hOtherInside.covers hPlace)⟩

/-- A statement that covers the start of the one that it is inside of starts with it. -/
theorem Statement.Inside.start_eq (h : inner.Inside outer) (hCovers : inner.Covers outer.start) :
    inner.start = outer.start := by
  obtain ⟨front, back, -, hStart⟩ := h
  obtain ⟨front', c, back', -, hPlace⟩ := hCovers
  cases front with
  | nil => exact hStart
  | cons d rest =>
    -- The position would come before itself.
    rw [hStart, ← Position.advanceBy_append, List.cons_append] at hPlace
    have hBefore := Position.before_advanceBy outer.start d (rest ++ front')
    rw [← hPlace] at hBefore
    exact absurd hBefore (Position.not_before_self _)

end Inside

/-- A part of a segment that starts with more than trivia and does not end in a blank stands in the
statement of the segment. -/
theorem Excerpt.exists_inside {rules : Rules} {position : Position} {segment : Segment Tile}
    {statement : Statement} {lead body : List Tile} {trail : List Char}
    (h : Excerpt rules position segment statement lead body trail) {items others : List Tile}
    {tile : Tile} (hItems : segment.items = items ++ tile :: others)
    (hTrivia : tile.token.isTrivia = false) {part rest : List Char}
    (hText : textOf (tile :: others) = part ++ rest) (hPart : Trimmed part) :
    ∃ front back, statement.text.toList = front ++ part ++ back ∧
      position.advanceBy (textOf items) = statement.start.advanceBy front := by
  obtain ⟨front, rfl, hBody⟩ := h.exists_front hItems hTrivia
  have hStart : position.advanceBy (textOf (lead ++ front)) =
      statement.start.advanceBy (textOf front) := by
    rw [h.start, textOf_append, Position.advanceBy_append]
  -- The text from the tile on is a tail of the statement and its trail, in which the part comes
  -- first. So the part ends in the statement, or only a rest of it is left in the trail.
  have hWhole := h.text
  rw [hBody, textOf_append, hText, ← List.append_assoc, List.append_eq_append_iff] at hWhole
  obtain ⟨back, hStatement, -⟩ | ⟨excess, hFront, hTrail⟩ := hWhole
  · exact ⟨textOf front, back, hStatement, hStart⟩
  · rcases List.eq_nil_or_concat' excess with rfl | ⟨excess, c, rfl⟩
    · exact ⟨textOf front, [], by rw [hFront]; simp, hStart⟩
    · -- The part would end in a blank of the trail.
      have hLast : part.getLast? = some c := by
        rw [← List.getLast?_append_of_ne_nil (textOf front) hPart.ne_nil, hFront]
        simp
      have hBlank := hPart.last c hLast
      rw [h.trail_blank c (by rw [hTrail]; simp)] at hBlank
      cases hBlank

/-! ## Sites -/

/-- A lexeme at its place in a script, whatever the dialect. -/
structure Site where
  lexeme : Lexeme
  start : Position
  /-- Whether the lexeme is next to a period. -/
  qualified : Bool

/-- The tile that a site becomes. -/
def Site.tile (rules : Rules) (site : Site) : Tile :=
  ⟨site.lexeme, .ofLexeme rules site.start site.qualified site.lexeme⟩

/-- The token that a site becomes. -/
def Site.token (rules : Rules) (site : Site) : Token := (site.tile rules).token

/-- The sites of the lexemes that follow a position and perhaps a period. -/
def sitesAfter (position : Position) (afterPeriod : Bool) : List Lexeme → List Site
  | [] => []
  | lexeme :: rest =>
    ⟨lexeme, position, Lexeme.qualified afterPeriod rest⟩ ::
      sitesAfter (position.advanceBy lexeme.source) lexeme.isPeriod rest

theorem map_tile_sitesAfter (rules : Rules) (position : Position) (afterPeriod : Bool)
    (lexemes : List Lexeme) :
    (sitesAfter position afterPeriod lexemes).map (Site.tile rules) =
      Tile.ofLexemesAfter rules position afterPeriod lexemes := by
  induction lexemes generalizing position afterPeriod with
  | nil => rfl
  | cons lexeme rest ih =>
    rw [sitesAfter, List.map_cons, ih, Tile.ofLexemesAfter]
    rfl

section Sites

variable (rules rules' : Rules)

theorem Site.isTrivia_token (site : Site) :
    (site.token rules).isTrivia = (site.token rules').isTrivia := by
  unfold token tile
  rw [Token.isTrivia_ofLexeme, Token.isTrivia_ofLexeme]

theorem Site.isTerminator_token (site : Site) :
    (site.token rules).isTerminator = (site.token rules').isTerminator := by
  unfold token tile
  rw [Token.isTerminator_ofLexeme, Token.isTerminator_ofLexeme]

/-- The characters that some sites stand for are the same in every dialect. -/
theorem textOf_map_tile (sites : List Site) :
    textOf (sites.map (Site.tile rules)) = textOf (sites.map (Site.tile rules')) := by
  unfold textOf
  rw [List.map_map, List.map_map]
  rfl

end Sites

/-! ## Statements along nested segments -/

/-- The segments of some sites. -/
abbrev siteSegments (rules : Rules) (sites : List Site) : List (Segment Site) :=
  segments rules (Site.token rules) sites

/-- The split that some sites make. -/
abbrev splitSites (rules : Rules) (sites : List Site) : Split :=
  splitTiles rules (sites.map (Site.tile rules))

/-- An item of a segment, with the items around it, and what belongs to it. -/
theorem Segment.items_map_split {α β : Type} (f : α → β) {segment : Segment α} {front back : List α}
    {item : α} (h : segment.items = front ++ item :: back) :
    (segment.map f).items = front.map f ++ f item :: back.map f := by
  rw [items_map, h, List.map_append, List.map_cons]

section Segments

variable {rules : Rules} {sites : List Site}

theorem segments_map_tile (rules : Rules) (sites : List Site) :
    segments rules Tile.token (sites.map (Site.tile rules)) =
      (siteSegments rules sites).map (Segment.map (Site.tile rules)) :=
  segments_comp rules Tile.token (Site.tile rules) sites

/-- The tiles of a segment follow those of the segments in front of it. -/
theorem tiling_segment (h : Tiling Position.start (sites.map (Site.tile rules)))
    {before later : List (Segment Site)} {segment : Segment Site}
    (hSegments : siteSegments rules sites = before ++ segment :: later) :
    Tiling (Position.start.advanceBy
        (textOf ((before.flatMap Segment.all).map (Site.tile rules))))
      (segment.map (Site.tile rules)).items := by
  have hSites : (siteSegments rules sites).flatMap Segment.all = sites :=
    flatMap_all_segments rules (Site.token rules) sites
  rw [hSegments] at hSites
  simp only [List.flatMap_append, List.flatMap_cons, Segment.all] at hSites
  rw [← hSites] at h
  simp only [List.map_append, List.append_assoc] at h
  exact (tiling_append.mp (tiling_append.mp h).2).1

/-- A statement is an excerpt of a segment. -/
theorem excerpt_of_mem_splitSites (h : Tiling Position.start (sites.map (Site.tile rules)))
    {statement : Statement} (hMem : statement ∈ (splitSites rules sites).statements.toList) :
    ∃ before segment later lead body trail,
      siteSegments rules sites = before ++ segment :: later ∧
        Excerpt rules (Position.start.advanceBy
            (textOf ((before.flatMap Segment.all).map (Site.tile rules))))
          (segment.map (Site.tile rules)) statement lead body trail := by
  rw [statements_splitTiles, segments_map_tile, List.filterMap_map] at hMem
  obtain ⟨segment, hSegment, hCut⟩ := List.mem_filterMap.mp hMem
  obtain ⟨before, later, hSegments⟩ := List.append_of_mem hSegment
  obtain ⟨lead, body, trail, hExcerpt⟩ :=
    Segment.excerpt_of_cutOut (tiling_segment h hSegments) hCut
  exact ⟨before, segment, later, lead, body, trail, hSegments, hExcerpt⟩

/-- The first site of a statement, with the sites around it in the segment. -/
theorem Excerpt.exists_site {position : Position} {segment : Segment Site} {statement : Statement}
    {lead body : List Tile} {trail : List Char}
    (h : Excerpt rules position (segment.map (Site.tile rules)) statement lead body trail) :
    ∃ front site back, segment.items = front ++ site :: back ∧
      lead = front.map (Site.tile rules) ∧ body = (site :: back).map (Site.tile rules) ∧
      (site.token rules).isTrivia = false := by
  obtain ⟨tile, rest, rfl, hTrivia⟩ := h.first
  obtain ⟨front, others, hItems, hLead, hOthers⟩ := List.map_eq_append_iff.mp h.items
  obtain ⟨site, back, rfl, rfl, rfl⟩ := List.map_eq_cons_iff.mp hOthers
  exact ⟨front, site, back, hItems, hLead.symm, rfl, hTrivia⟩

/-- At the start of a statement a terminator would end it, be it behind blanks and comments. -/
theorem Context.not_isTerminator_of_uncut {front back : List Token} {token : Token}
    (h : Context.empty.Uncut rules (front ++ token :: back))
    (hFront : ∀ other ∈ front, other.isTrivia = true) : token.isTerminator = false := by
  induction front with
  | nil =>
    cases hTerminator : token.isTerminator with
    | false => rfl
    | true => exact absurd ⟨hTerminator, rfl⟩ h.1
  | cons other rest ih =>
    have hKeyword := Token.isKeyword_of_isTrivia (hFront other List.mem_cons_self)
    have hRest := h.2
    rw [(Context.empty.feed_of_not_keyword rules other hKeyword).1] at hRest
    exact ih hRest fun other hOther => hFront other (List.mem_cons_of_mem _ hOther)

/-- A statement starts with a site that is neither trivia nor a terminator. -/
theorem exists_first_site (h : Tiling Position.start (sites.map (Site.tile rules)))
    {statement : Statement} (hMem : statement ∈ (splitSites rules sites).statements.toList) :
    ∃ site ∈ sites, (site.token rules).isTrivia = false ∧
      (site.token rules).isTerminator = false ∧ site.start = statement.start ∧
      statement.Covers site.start := by
  obtain ⟨before, segment, later, lead, body, trail, hSegments, hExcerpt⟩ :=
    excerpt_of_mem_splitSites h hMem
  obtain ⟨front, site, back, hItems, rfl, rfl, hTrivia⟩ := hExcerpt.exists_site
  have hTiling := tiling_segment h hSegments
  have hTiles := Segment.items_map_split (Site.tile rules) hItems
  have hSegment : segment ∈ siteSegments rules sites := by
    rw [hSegments]
    simp
  have hSite : site ∈ (siteSegments rules sites).flatMap Segment.all :=
    List.mem_flatMap.mpr ⟨segment, hSegment, by simp [Segment.all, hItems]⟩
  rw [flatMap_all_segments] at hSite
  refine ⟨site, hSite, hTrivia, ?_, ?_, hExcerpt.covers hTiling hTiles hTrivia⟩
  · -- Only trivia stands in front of the site, so that a terminator would have been cut at.
    have hUncut := (uncut_of_mem_segments rules (Site.token rules) segment hSegment).1
    rw [hItems, List.map_append, List.map_cons] at hUncut
    refine Context.not_isTerminator_of_uncut hUncut fun token hToken => ?_
    obtain ⟨other, hOther, rfl⟩ := List.mem_map.mp hToken
    exact hExcerpt.lead_trivia (other.tile rules) (List.mem_map_of_mem hOther)
  · rw [hExcerpt.start]
    rw [hTiles] at hTiling
    exact hTiling.start_eq

/-- Such a site is covered by exactly one statement. -/
theorem coveredOnce_of_site (h : Tiling Position.start (sites.map (Site.tile rules)))
    {site : Site} (hSite : site ∈ sites) (hTrivia : (site.token rules).isTrivia = false)
    (hTerminator : (site.token rules).isTerminator = false) :
    CoveredOnce (splitSites rules sites).statements.toList site.start := by
  obtain ⟨front, back, rfl⟩ := List.append_of_mem hSite
  have hTiles : (front ++ site :: back).map (Site.tile rules) =
      front.map (Site.tile rules) ++ site.tile rules :: back.map (Site.tile rules) := by
    rw [List.map_append, List.map_cons]
  have hCovered := covered_splitTiles rules h hTiles
  rw [if_neg fun hCuts => ?_] at hCovered
  · exact hCovered hTrivia
  · rw [Site.token, hCuts.1] at hTerminator
    cases hTerminator

end Segments

section Nested

variable {coarse fine : Rules} {sites : List Site}

/-- A statement whose segment stands in a segment of the coarser split lies inside a statement. -/
theorem exists_outer_of_standsIn
    (hCoarse : Tiling Position.start (sites.map (Site.tile coarse))) {before : List Site}
    {part : Segment Site} {inner : Statement} {lead body : List Tile} {trail : List Char}
    (hPart : Excerpt fine (Position.start.advanceBy (textOf (before.map (Site.tile fine))))
      (part.map (Site.tile fine)) inner lead body trail)
    (h : StandsIn before part.items (siteSegments coarse sites)) :
    ∃ outer ∈ (splitSites coarse sites).statements.toList, inner.Inside outer := by
  obtain ⟨front, site, back, hItems, rfl, rfl, hTrivia⟩ := hPart.exists_site
  obtain ⟨before', segment, later', lead', trail', hSegments, hStands, rfl⟩ := h
  rw [Site.isTrivia_token fine coarse] at hTrivia
  -- The first site of the statement is in the segment of the coarser split, which therefore makes
  -- a statement.
  have hSites : segment.items = (lead' ++ front) ++ site :: (back ++ trail') := by
    rw [hStands, hItems]
    simp
  have hTiles := Segment.items_map_split (Site.tile coarse) hSites
  obtain ⟨hNone, -⟩ | ⟨outer, _, _, _, hSome, hOuter⟩ :=
    Segment.cutOut_cases coarse (tiling_segment hCoarse hSegments)
  · have hAll := hNone (site.tile coarse) (by rw [hTiles]; simp)
    rw [Site.token, hAll] at hTrivia
    cases hTrivia
  -- From there on stand the text of the statement and more.
  have hText : textOf (site.tile coarse :: (back ++ trail').map (Site.tile coarse)) =
      inner.text.toList ++ (trail ++ textOf (trail'.map (Site.tile coarse))) := by
    rw [← List.map_cons, ← List.cons_append, List.map_append, textOf_append,
      textOf_map_tile coarse fine, hPart.text, List.append_assoc]
  obtain ⟨ahead, rest, hAhead, hStart⟩ := hOuter.exists_inside hTiles hTrivia hText hPart.trimmed
  refine ⟨outer, ?_, ahead, rest, hAhead, ?_⟩
  · rw [statements_splitTiles, segments_map_tile, hSegments, List.filterMap_map]
    exact List.mem_filterMap.mpr ⟨segment, by simp, hSome⟩
  · rw [hPart.start, ← hStart, textOf_map_tile fine coarse, textOf_map_tile fine coarse]
    simp only [List.map_append, textOf_append, Position.advanceBy_append]

variable (hCoarse : Tiling Position.start (sites.map (Site.tile coarse)))
  (hFine : Tiling Position.start (sites.map (Site.tile fine)))
  (hNests : Nests (siteSegments coarse sites) (siteSegments fine sites))

include hCoarse hFine

/-- The first site of a statement of one split is covered once in the other. -/
theorem coveredOnce_start {statement : Statement}
    (hMem : statement ∈ (splitSites fine sites).statements.toList) :
    CoveredOnce (splitSites coarse sites).statements.toList statement.start ∧
      statement.Covers statement.start := by
  obtain ⟨site, hSite, hTrivia, hTerminator, hStart, hCovers⟩ := exists_first_site hFine hMem
  rw [Site.isTrivia_token fine coarse] at hTrivia
  rw [Site.isTerminator_token fine coarse] at hTerminator
  rw [← hStart]
  exact ⟨coveredOnce_of_site hCoarse hSite hTrivia hTerminator, hCovers⟩

include hNests

/-- A statement of the finer split lies inside one of the coarser split. -/
theorem insideOne_of_nests {inner : Statement}
    (hInner : inner ∈ (splitSites fine sites).statements.toList) :
    InsideOne inner (splitSites coarse sites).statements.toList := by
  obtain ⟨before, part, later, lead, body, trail, hParts, hPart⟩ :=
    excerpt_of_mem_splitSites hFine hInner
  obtain ⟨outer, hOuter, hInside⟩ :=
    exists_outer_of_standsIn hCoarse hPart (hNests.standsIn hParts)
  -- Its start tells the statement that it lies inside from all the others.
  obtain ⟨hOnce, hCovers⟩ := coveredOnce_start hCoarse hFine hInner
  exact hOnce.insideOne hCovers hOuter hInside

/-- A statement of the coarser split starts where one of the finer split does. -/
theorem exists_start_of_nests {outer : Statement}
    (hOuter : outer ∈ (splitSites coarse sites).statements.toList) :
    ∃ inner ∈ (splitSites fine sites).statements.toList, inner.start = outer.start := by
  obtain ⟨hOnce, hOuterCovers⟩ := coveredOnce_start hCoarse hCoarse hOuter
  obtain ⟨⟨before, inner, later, hStatements, hCovers, -⟩, -⟩ :=
    coveredOnce_start hFine hCoarse hOuter
  have hInner : inner ∈ (splitSites fine sites).statements.toList := by
    rw [hStatements]
    simp
  -- The statement that covers the start lies inside one of the coarser split, and that can only be
  -- the one started with.
  obtain ⟨_, other, _, hOthers, hInside, -⟩ := insideOne_of_nests hCoarse hFine hNests hInner
  have hOther : other ∈ (splitSites coarse sites).statements.toList := by
    rw [hOthers]
    simp
  have hSame : other = outer :=
    hOnce.eq_of_covers hOther hOuter (hInside.covers hCovers) hOuterCovers
  subst hSame
  exact ⟨inner, hInner, hInside.start_eq hCovers⟩

/-- If the segments of two splits nest, the one split coarsens the other. -/
theorem coarsens_of_nests :
    Coarsens (splitSites coarse sites).statements.toList
      (splitSites fine sites).statements.toList :=
  ⟨fun _ hInner => insideOne_of_nests hCoarse hFine hNests hInner,
    fun _ hOuter => exists_start_of_nests hCoarse hFine hNests hOuter⟩

end Nested

/-! ## Rules that cut more -/

section Cuts

variable {α : Type} {objects more : ModifiableObjects} {first second : Context}

/-- More objects make for more cuts. -/
theorem cutsRefined_of_coupled (h : first.Coupled second)
    (hMore : ∀ word, objects.contains word = true → more.contains word = true)
    (token : α → Token) (items : List α) :
    CutsRefined ⟨.hsqldb, objects⟩ ⟨.hsqldb, more⟩ token token first second items := by
  induction items generalizing first second with
  | nil => trivial
  | cons item rest ih => exact ⟨h.cuts, ih (h.next hMore (token item))⟩

/-- In the generic dialect there are all cuts that there can be. -/
theorem cutsRefined_generic (h : second.Flat) (coarse : Rules) {token token' : α → Token}
    (hTokens : ∀ item, (token item).isTerminator = (token' item).isTerminator)
    (items : List α) :
    CutsRefined coarse ⟨.generic, objects⟩ token token' first second items := by
  induction items generalizing first second with
  | nil => trivial
  | cons item rest ih =>
    refine ⟨fun hCuts => ?_, ih (h.next (token' item))⟩
    rw [h.cuts_iff, ← hTokens]
    exact hCuts.1

end Cuts

/-- The sites of the lexemes of a whole script. -/
abbrev sitesOf (lexemes : List Lexeme) : List Site := sitesAfter Position.start false lexemes

/-- If the finer rules cut wherever the coarser ones do, the splits of a script coarsen. -/
theorem coarsens_of_cutsRefined {coarse fine : Rules} {lexemes : List Lexeme}
    (hLexes : Lexes lexemes [])
    (h : CutsRefined coarse fine (Site.token coarse) (Site.token fine) Context.empty Context.empty
      (sitesOf lexemes)) :
    Coarsens (splitTiles coarse (tilesOf coarse lexemes)).statements.toList
      (splitTiles fine (tilesOf fine lexemes)).statements.toList := by
  have hTiling : ∀ rules : Rules,
      Tiling Position.start ((sitesOf lexemes).map (Site.tile rules)) := by
    intro rules
    rw [map_tile_sitesAfter]
    exact tiling_ofLexemesAfter rules Position.start false hLexes
  -- The sites are the tiles without the rules, so that both sets of rules work on one list.
  have hCoarsens := coarsens_of_nests (hTiling coarse) (hTiling fine) (nests_segmentsFrom h)
  unfold splitSites at hCoarsens
  rw [map_tile_sitesAfter, map_tile_sitesAfter] at hCoarsens
  exact hCoarsens

/-- More modifiable objects only ever add cuts, and so does the generic dialect, which cuts at every
terminator. So splits with fewer cuts coarsen those with more. -/
theorem split_coarsens (objects others : ModifiableObjects) (names : List String) :
    let rules : Rules := ⟨.hsqldb, objects⟩
    let more := rules.withObjects names
    let generic : Rules := ⟨.generic, others⟩
    (∀ script front mark, CutAfter rules script front mark → CutAfter more script front mark) ∧
      (∀ script front mark, mark.isTerminator = true → CutAfter generic script front mark) ∧
      (∀ script tokens, (splitTokens generic script tokens).diagnostics = #[] ∧
        ∀ statement ∈ (splitTokens generic script tokens).statements, statement.maxDepth = 0) ∧
      ∀ script tokens, tokenize rules (dropByteOrderMark script) = .ok tokens →
        ∃ coarse fine finest, split rules script = .ok coarse ∧ split more script = .ok fine ∧
          split generic script = .ok finest ∧
          Coarsens coarse.statements.toList fine.statements.toList ∧
          Coarsens coarse.statements.toList finest.statements.toList := by
  intro rules more generic
  have hMore : ∀ word, objects.contains word = true →
      (objects.extend names).contains word = true :=
    fun _ hWord => ModifiableObjects.contains_extend names hWord
  refine ⟨?_, ?_, flat_splitTokens others, ?_⟩
  · -- With more objects the depth is lower or the same, so a boundary stays one.
    intro script front mark hCut
    rw [cutAfter_iff] at hCut ⊢
    exact ((Context.Coupled.refl Context.empty).contextAfter hMore front).cuts hCut
  · -- In the generic dialect every place is a boundary.
    intro script front mark hMark
    rw [cutAfter_iff]
    exact ((Context.flat_empty.contextAfter front).cuts_iff mark).mpr hMark
  · intro script tokens hTokens
    -- All three sets of rules split the same lexemes, and the cuts on them are refined.
    obtain ⟨lexemes, hLex, -⟩ := lexes_of_tokenize hTokens
    have hLexes := (lexes_of_lex hLex).1
    refine ⟨_, _, _, split_of_lex rules hLex, split_of_lex more hLex, split_of_lex generic hLex,
      coarsens_of_cutsRefined hLexes ?_, coarsens_of_cutsRefined hLexes ?_⟩
    · exact cutsRefined_of_coupled (Context.Coupled.refl _) hMore (Site.token rules) _
    · exact cutsRefined_generic Context.flat_empty rules
        (fun site => Site.isTerminator_token rules generic site) _

/-- The guard after an object opens a block unless the object is known, and the script is one
statement then. -/
theorem split_coarsens_guard :
    let script := "DROP TRIGGER IF EXISTS t; 1"
    let whole : Statement := ⟨script, ⟨1, 1⟩, 4, 1, false⟩
    let first : Statement := ⟨"DROP TRIGGER IF EXISTS t", ⟨1, 1⟩, 4, 0, true⟩
    let second : Statement := ⟨"1", ⟨1, 27⟩, 0, 0, false⟩
    split Dialect.hsqldb.rules script = .ok ⟨#[whole], #[.unclosedBlock ⟨1, 1⟩ 1]⟩ ∧
      split (Dialect.hsqldb.rules.withObjects ["trigger"]) script = .ok ⟨#[first, second], #[]⟩ ∧
      split ⟨.generic, .empty⟩ script = .ok ⟨#[first, second], #[]⟩ ∧
      Coarsens [whole] [first, second] := by
  intro script whole first second
  have hWhole : split Dialect.hsqldb.rules script = .ok ⟨#[whole], #[.unclosedBlock ⟨1, 1⟩ 1]⟩ := by
    decide +kernel
  have hParts : split (Dialect.hsqldb.rules.withObjects ["trigger"]) script =
      .ok ⟨#[first, second], #[]⟩ := by
    decide +kernel
  obtain ⟨lexemes, hLex, -⟩ := lex_of_split hWhole
  obtain ⟨coarse, fine, finest, hCoarse, hFine, -, hCoarsens, -⟩ :=
    (split_coarsens (.ofNames Dialect.hsqldb.objects) .empty ["trigger"]).2.2.2 script _
      (tokenize_of_lex Dialect.hsqldb.rules hLex)
  obtain rfl := Except.ok.inj (hCoarse.symm.trans hWhole)
  obtain rfl := Except.ok.inj (hFine.symm.trans hParts)
  exact ⟨hWhole, hParts, by decide +kernel, hCoarsens⟩

end SqlScript
