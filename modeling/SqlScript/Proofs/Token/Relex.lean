import SqlScript.Proofs.Block.Essence
import SqlScript.Proofs.Lexeme.Ending
import SqlScript.Proofs.Split.Excerpt

/-!
# Reading a trimmed text again

A text is cut out of a script and the blanks at its end are dropped. Then it is read again, at the
end of another script or in front of a newline. Its lexemes stay what they were, except for the
last one: if it was trimmed, or if nothing but a blank kept its signs from opening a word, then it
is read in another way. None of these changes makes a keyword of it, so that a context sees the
same of both readings.

## Results

* `not_isKeyword_of_sign` — no reserved word starts with a sign that opens words.
* `lexes_reread`          — lexemes in front of the last one are read again.
* `exists_relexed`        — a trimmed text has lexemes with the same essences.
-/

namespace SqlScript

/-! ## Reserved words -/

/-- A text starts with the first byte of its first character. -/
theorem head?_bytes_ofList (c : Char) (rest : List Char) :
    (bytes (String.ofList (c :: rest))).head? = (String.utf8EncodeChar c).head? := by
  rw [bytes_eq, String.toList_ofList, List.flatMap_cons]
  cases hBytes : String.utf8EncodeChar c with
  | nil =>
    have hLength := String.length_utf8EncodeChar c
    rw [hBytes] at hLength
    exact absurd hLength (Nat.ne_of_lt c.utf8Size_pos)
  | cons byte others => rfl

/-- Every reserved word starts at the letter A or above. -/
theorem first_of_mem_keywords (dialect : Dialect) : ∀ word ∈ dialect.keywords,
    (bytes word).head?.all fun byte => 65 ≤ byte.toNat := by
  show ∀ word ∈ dialect.keywords.words, _
  cases dialect <;> decide +kernel

/-- No reserved word starts with a sign that opens words. -/
theorem not_isKeyword_of_sign (rules : Rules) {c : Char} (h : c = '@' ∨ c = '#')
    (rest : List Char) : rules.isKeyword (String.ofList (c :: rest)) = false := by
  by_contra hKeyword
  rw [Bool.not_eq_false] at hKeyword
  have hUpper : upper (String.ofList (c :: rest)) = String.ofList (c :: rest.map Char.toUpper) := by
    rw [← String.toList_inj, toList_upper]
    rcases h with rfl | rfl <;> simp
  unfold Rules.isKeyword Rules.keywords at hKeyword
  rw [hUpper, WordSet.contains_eq_true_iff] at hKeyword
  have hFirst := first_of_mem_keywords rules.dialect _ hKeyword
  rw [head?_bytes_ofList] at hFirst
  rcases h with rfl | rfl <;> exact absurd hFirst (by decide)

/-! ## Essences of lexemes -/

/-- What contexts see of some lexemes, perhaps after a period. -/
def essencesOf (rules : Rules) (afterPeriod : Bool) (lexemes : List Lexeme) : List Token :=
  essences (Token.ofLexemesAfter rules Position.start afterPeriod lexemes)

section Essences

variable (rules : Rules)

/-- The essence of a token does not depend on its place. -/
theorem essence_ofLexeme (position : Position) (qualified : Bool) (lexeme : Lexeme) :
    (Token.ofLexeme rules position qualified lexeme).essence =
      (Token.ofLexeme rules Position.start qualified lexeme).essence := rfl

theorem essences_ofLexemesAfter (position : Position) (afterPeriod : Bool)
    (lexemes : List Lexeme) :
    essences (Token.ofLexemesAfter rules position afterPeriod lexemes) =
      essencesOf rules afterPeriod lexemes := by
  unfold essencesOf
  generalize Position.start = other
  induction lexemes generalizing position other afterPeriod with
  | nil => rfl
  | cons lexeme rest ih =>
    rw [Token.ofLexemesAfter_cons, Token.ofLexemesAfter_cons, essences_cons, essences_cons,
      essence_ofLexeme, essence_ofLexeme rules other]
    rw [ih _ _ (other.advanceBy lexeme.source)]

theorem essencesOf_cons (afterPeriod : Bool) (lexeme : Lexeme) (rest : List Lexeme) :
    essencesOf rules afterPeriod (lexeme :: rest) =
      (Token.ofLexeme rules Position.start (Lexeme.qualified afterPeriod rest)
        lexeme).essence.toList ++ essencesOf rules lexeme.isPeriod rest := by
  rw [essencesOf, Token.ofLexemesAfter_cons, essences_cons, essences_ofLexemesAfter]

/-- In front of lexemes with the same essences, lexemes have the same essences. -/
theorem essencesOf_append_congr {back others : List Lexeme}
    (hPeriod : back.head?.any Lexeme.isPeriod = others.head?.any Lexeme.isPeriod)
    (h : ∀ afterPeriod, essencesOf rules afterPeriod back = essencesOf rules afterPeriod others)
    (front : List Lexeme) (afterPeriod : Bool) :
    essencesOf rules afterPeriod (front ++ back) =
      essencesOf rules afterPeriod (front ++ others) := by
  induction front generalizing afterPeriod with
  | nil => exact h afterPeriod
  | cons lexeme rest ih =>
    -- A period at the seam is in both or in neither, so the last lexeme in front stays as it is.
    have hQualified : Lexeme.qualified afterPeriod (rest ++ back) =
        Lexeme.qualified afterPeriod (rest ++ others) := by
      cases rest with
      | nil => simp only [Lexeme.qualified, List.nil_append, hPeriod]
      | cons next rest => rfl
    rw [List.cons_append, List.cons_append, essencesOf_cons, essencesOf_cons, hQualified, ih]

variable {rules}

/-- Blanks and comments have no essence. -/
theorem essence_of_trivia {lexeme : Lexeme} (h : lexeme.kind = .blank ∨ lexeme.kind = .comment)
    (position : Position) (qualified : Bool) :
    (Token.ofLexeme rules position qualified lexeme).essence = none := by
  refine Token.essence_of_isTrivia ?_
  rw [Token.isTrivia_ofLexeme, decide_eq_true_eq]
  exact h

theorem essencesOf_blanks {blanks : List Lexeme} (h : ∀ blank ∈ blanks, blank.kind = .blank)
    (afterPeriod : Bool) : essencesOf rules afterPeriod blanks = [] := by
  induction blanks generalizing afterPeriod with
  | nil => rfl
  | cons blank rest ih =>
    rw [essencesOf_cons, essence_of_trivia (.inl (h blank List.mem_cons_self)),
      ih fun other hOther => h other (List.mem_cons_of_mem _ hOther)]
    rfl

/-- Blanks in front of lexemes do not change what a context sees of them. -/
theorem essencesOf_blanks_append {blanks : List Lexeme}
    (h : ∀ blank ∈ blanks, blank.kind = .blank) (lexemes : List Lexeme) :
    essencesOf rules false (blanks ++ lexemes) = essencesOf rules false lexemes := by
  induction blanks with
  | nil => rfl
  | cons blank rest ih =>
    have hKind : blank.kind = .blank := h blank List.mem_cons_self
    have hPeriod : blank.isPeriod = false := by simp [Lexeme.isPeriod, hKind]
    rw [List.cons_append, essencesOf_cons, essence_of_trivia (.inl hKind), hPeriod,
      ih fun other hOther => h other (List.mem_cons_of_mem _ hOther)]
    rfl

/-- An operator or a word of signs has no essence. -/
theorem essence_of_ofSigns {lexeme : Lexeme} (h : lexeme.OfSigns) (position : Position)
    (qualified : Bool) : (Token.ofLexeme rules position qualified lexeme).essence = none := by
  -- No reserved word starts with a sign.
  have hKeyword : (Token.ofLexeme rules position qualified lexeme).isKeyword = false := by
    rw [Token.isKeyword_ofLexeme]
    obtain hOperator | ⟨-, c, rest, hText, hSign⟩ := h
    · simp [hOperator]
    · rw [hText, not_isKeyword_of_sign rules hSign, Bool.and_false]
  have hTerminator : (Token.ofLexeme rules position qualified lexeme).isTerminator = false := by
    rw [Token.isTerminator_ofLexeme]
    obtain hOperator | ⟨hWord, -⟩ := h
    · simp [hOperator]
    · simp [hWord]
  unfold Token.essence
  rw [hKeyword, hTerminator]
  rfl

/-- Blanks behind a lexeme do not change what a context sees of it. -/
theorem essencesOf_lexeme_blanks (lexeme : Lexeme) {blanks : List Lexeme}
    (h : ∀ blank ∈ blanks, blank.kind = .blank) (afterPeriod : Bool) :
    essencesOf rules afterPeriod (lexeme :: blanks) =
      (Token.ofLexeme rules Position.start afterPeriod lexeme).essence.toList := by
  have hQualified : Lexeme.qualified afterPeriod blanks = afterPeriod := by
    cases blanks with
    | nil => simp [Lexeme.qualified]
    | cons blank rest =>
      simp [Lexeme.qualified, Lexeme.isPeriod, h blank List.mem_cons_self]
  rw [essencesOf_cons, essencesOf_blanks h, hQualified, List.append_nil]

end Essences

/-! ## Splitting lexemes at a place -/

/-- The lexeme that the last character of a text belongs to. -/
theorem exists_last_lexeme {lexemes : List Lexeme} {text trail : List Char}
    (h : sourceOf lexemes = text ++ trail) (hText : text ≠ []) :
    ∃ front lexeme back taken left, lexemes = front ++ lexeme :: back ∧
      lexeme.source = taken ++ left ∧ taken ≠ [] ∧ text = sourceOf front ++ taken ∧
      trail = left ++ sourceOf back := by
  induction lexemes generalizing text with
  | nil =>
    rw [sourceOf_nil] at h
    exact absurd (List.append_eq_nil_iff.mp h.symm).1 hText
  | cons lexeme rest ih =>
    rw [sourceOf_cons, List.append_eq_append_iff] at h
    obtain ⟨more, rfl, hRest⟩ | ⟨left, hSource, rfl⟩ := h
    · by_cases hMore : more = []
      · -- The text ends with the lexeme.
        subst hMore
        rw [List.append_nil] at hText ⊢
        exact ⟨[], lexeme, rest, lexeme.source, [], rfl, by simp, hText, rfl, hRest.symm⟩
      · obtain ⟨front, last, back, taken, left, rfl, hSource, hTaken, rfl, rfl⟩ := ih hRest hMore
        exact ⟨lexeme :: front, last, back, taken, left, rfl, hSource, hTaken, by simp, rfl⟩
    · exact ⟨[], lexeme, rest, text, left, rfl, hSource, hText, rfl, rfl⟩

/-- Lexemes of blank characters are blanks. -/
theorem kind_of_blank_source {lexemes : List Lexeme} {after : List Char} (h : Lexes lexemes after)
    (hBlank : ∀ c ∈ sourceOf lexemes, isBlank c = true) :
    ∀ lexeme ∈ lexemes, lexeme.kind = .blank := by
  induction lexemes with
  | nil => exact nofun
  | cons lexeme rest ih =>
    obtain ⟨⟨c, taken, hSource, hRead⟩, hRest⟩ := h
    rw [sourceOf_cons, hSource] at hBlank
    intro other hOther
    rcases List.mem_cons.mp hOther with rfl | hOther
    · exact (readLexeme_blank (hBlank c (by simp)) _ hRead).1
    · exact ih hRest (fun d hd => hBlank d (by simp [hd])) other hOther

/-- Lexemes in front of the last one are read again whatever follows the text. None of them is
loose, as a loose opening would have taken up the text to its end. -/
theorem lexes_reread {lexemes : List Lexeme} {taken after after' : List Char} (hTaken : taken ≠ [])
    (hAfter : Stops after) (hAfter' : Stops after') (h : Lexes lexemes (taken ++ after)) :
    Lexes lexemes (taken ++ after') := by
  induction lexemes with
  | nil => trivial
  | cons lexeme rest ih =>
    obtain ⟨⟨c, others, hSource, hRead⟩, hRest⟩ := h
    refine ⟨⟨c, others, hSource, ?_⟩, ih hRest⟩
    have hLength := List.length_pos_iff.mpr hTaken
    have hFits : lexeme.source.length ≤ (others ++ (sourceOf rest ++ taken)).length := by
      rw [hSource]
      simp only [List.length_cons, List.length_append]
      omega
    have hSplit : ∀ chars, others ++ (sourceOf rest ++ (taken ++ chars)) =
        others ++ (sourceOf rest ++ taken) ++ chars := by simp
    rw [hSplit] at hRead ⊢
    refine readLexeme_append_stops hAfter hAfter' hRead (Nat.le_succ_of_le hFits) fun hLoose => ?_
    -- A loose lexeme would reach into the characters that were taken, and no room is left for them.
    by_cases hBlank : isBlank c = true
    · have hNil := congrArg List.length (eq_nil_of_loose hLoose hBlank)
      simp only [List.length_append, List.length_nil] at hNil
      omega
    · have hReach := loose_source_length (by simpa using hBlank) hLoose hAfter hRead
      omega

/-! ## Trimmed texts -/

/-- A newline is read as a blank wherever it stands. -/
theorem exists_blanks {chars : List Char} (h : chars = [] ∨ chars = ['\n']) :
    ∃ blanks, sourceOf blanks = chars ∧ (∀ blank ∈ blanks, blank.kind = .blank) ∧
      ∀ rest, Lexes blanks rest := by
  rcases h with rfl | rfl
  · exact ⟨[], rfl, nofun, fun _ => trivial⟩
  · refine ⟨[.verbatim .blank ['\n']], rfl, ?_, fun _ => ⟨⟨'\n', [], rfl, rfl⟩, trivial⟩⟩
    intro blank hBlank
    rw [List.mem_singleton.mp hBlank]
    rfl

/-- The lexeme is no blank and no comment. -/
def Lexeme.Solid (lexeme : Lexeme) : Prop := lexeme.kind ≠ .blank ∧ lexeme.kind ≠ .comment

/-- The lexemes are the same, or both are comments, or both are of signs. -/
def Lexeme.Akin (first second : Lexeme) : Prop :=
  first = second ∨ first.kind = .comment ∧ second.kind = .comment ∨
    first.OfSigns ∧ second.OfSigns

theorem Lexeme.OfSigns.kind_ne {lexeme : Lexeme} (h : lexeme.OfSigns) :
    lexeme.isPeriod = false ∧ lexeme.Solid := by
  unfold isPeriod Solid
  obtain hOperator | ⟨hWord, -⟩ := h
  · simp [hOperator]
  · simp [hWord]

theorem Lexeme.Akin.isPeriod_eq {first second : Lexeme} (h : first.Akin second) :
    first.isPeriod = second.isPeriod := by
  obtain rfl | ⟨hFirst, hSecond⟩ | ⟨hFirst, hSecond⟩ := h
  · rfl
  · simp [isPeriod, hFirst, hSecond]
  · rw [hFirst.kind_ne.1, hSecond.kind_ne.1]

theorem Lexeme.Akin.essence_eq {first second : Lexeme} (h : first.Akin second) (rules : Rules)
    (position : Position) (qualified : Bool) :
    (Token.ofLexeme rules position qualified first).essence =
      (Token.ofLexeme rules position qualified second).essence := by
  obtain rfl | ⟨hFirst, hSecond⟩ | ⟨hFirst, hSecond⟩ := h
  · rfl
  · rw [essence_of_trivia (.inr hFirst), essence_of_trivia (.inr hSecond)]
  · rw [essence_of_ofSigns hFirst, essence_of_ofSigns hSecond]

theorem Lexeme.Akin.solid {first second : Lexeme} (h : first.Akin second) (hSolid : first.Solid) :
    second.Solid := by
  obtain rfl | ⟨hFirst, -⟩ | ⟨-, hSecond⟩ := h
  · exact hSolid
  · exact absurd hFirst hSolid.2
  · exact hSecond.kind_ne.2

/-- The last lexeme of a trimmed text is read again before a joint, as itself or as one akin. -/
theorem exists_last_relexed {lexeme : Lexeme} {c : Char} {taken left after : List Char}
    (hSource : lexeme.source = c :: taken ++ left)
    (hRead : readLexeme c (taken ++ (left ++ after)) = .ok lexeme)
    (hLeft : ∀ d ∈ left, isBlank d = true) (hBlank : isBlank c = false)
    (hAfter : Stops (left ++ after)) {joint rest : List Char} (hJoint : Joint joint rest) :
    ∃ again blanks, Lexes (again :: blanks) rest ∧
      sourceOf (again :: blanks) = c :: taken ++ joint ∧
      (∀ blank ∈ blanks, blank.kind = .blank) ∧ lexeme.Akin again := by
  by_cases hLoose : Loose (c :: taken)
  · -- The joint becomes part of the lexeme.
    obtain ⟨again, hAgain, hAgainSource, hAkin⟩ := reread_loose hBlank hLoose hAfter hRead hJoint
    refine ⟨again, [], ⟨⟨c, taken ++ joint, hAgainSource, ?_⟩, trivial⟩, ?_, nofun, .inr hAkin⟩
    · rw [sourceOf_nil, List.nil_append, List.append_assoc]
      exact hAgain
    · simp [hAgainSource]
  · -- A lexeme that is not loose ends in no blank, so all of it is in the text.
    have hNil : left = [] := by
      by_contra hLeftNil
      exact hLoose (loose_of_trail hRead hBlank hSource hLeftNil hLeft)
    subst hNil
    rw [List.append_nil] at hSource
    obtain ⟨blanks, hBlankSource, hKinds, hBlanks⟩ := exists_blanks hJoint.eq
    refine ⟨lexeme, blanks, ⟨⟨c, taken, hSource, ?_⟩, hBlanks rest⟩, ?_, hKinds, .inl rfl⟩
    · rw [hBlankSource]
      have hFits : lexeme.source.length ≤ taken.length + 1 := by
        rw [hSource, List.length_cons]
      exact readLexeme_append_stops hAfter hJoint.stops hRead hFits fun h => absurd h hLoose
    · rw [sourceOf_cons, hSource, hBlankSource]

/-- The lexeme that holds the last character of a trimmed text does not start with a blank, as a
blank would hold no other characters. -/
theorem not_isBlank_of_trimmed {c : Char} {rest front taken left : List Char} {lexeme : Lexeme}
    (hRead : readLexeme c rest = .ok lexeme) (hSource : lexeme.source = c :: taken ++ left)
    (hTrimmed : Trimmed (front ++ c :: taken)) : isBlank c = false := by
  by_contra hBlank
  rw [Bool.not_eq_false] at hBlank
  obtain ⟨others, last, hEnd⟩ :=
    (List.eq_nil_or_concat' (c :: taken)).resolve_left (List.cons_ne_nil c taken)
  have hLast := (readLexeme_blank hBlank _ hRead).2 last (by rw [hSource, hEnd]; simp)
  rw [hTrimmed.last last (by rw [hEnd]; simp)] at hLast
  cases hLast

/-- A text that was cut out of a script and trimmed has lexemes before a joint. They start with
more than trivia if the ones in the script did, and contexts see the same of them. -/
theorem exists_relexed {lexemes : List Lexeme} {text trail after : List Char}
    (h : Lexes lexemes after) (hAfter : Stops after) (hSource : sourceOf lexemes = text ++ trail)
    (hTrail : ∀ c ∈ trail, isBlank c = true) (hTrimmed : Trimmed text) {joint rest : List Char}
    (hJoint : Joint joint rest) :
    ∃ again, Lexes again rest ∧ sourceOf again = text ++ joint ∧
      (∀ rules afterPeriod,
        essencesOf rules afterPeriod again = essencesOf rules afterPeriod lexemes) ∧
      ((∀ lexeme ∈ lexemes.head?, lexeme.Solid) → ∀ lexeme ∈ again.head?, lexeme.Solid) := by
  obtain ⟨front, lexeme, back, taken, left, rfl, hLast, hTaken, rfl, rfl⟩ :=
    exists_last_lexeme hSource hTrimmed.ne_nil
  obtain ⟨hFront, ⟨c, source, hLexeme, hRead⟩, hBack⟩ := lexes_append.mp h
  obtain ⟨d, taken, rfl⟩ := List.exists_cons_of_ne_nil hTaken
  obtain ⟨rfl, rfl⟩ : c = d ∧ source = taken ++ left := by
    rw [hLexeme] at hLast
    exact List.cons.inj hLast
  have hBlank : isBlank c = false := not_isBlank_of_trimmed hRead hLast hTrimmed
  have hBlanks : ∀ blank ∈ back, blank.kind = .blank :=
    kind_of_blank_source hBack fun d hd => hTrail d (by simp [hd])
  have hStops : Stops (left ++ (sourceOf back ++ after)) := by
    rw [← List.append_assoc]
    exact stops_of_blanks hTrail hAfter
  rw [List.append_assoc] at hRead
  obtain ⟨again, blanks, hAgain, hAgainSource, hKinds, hAkin⟩ :=
    exists_last_relexed hLast hRead (fun e he => hTrail e (by simp [he])) hBlank hStops hJoint
  refine ⟨front ++ again :: blanks, lexes_append.mpr ⟨?_, hAgain⟩, ?_, ?_, ?_⟩
  · -- The lexemes in front of the last one stay as they are.
    rw [hAgainSource, List.append_assoc]
    refine lexes_reread hTaken hStops hJoint.stops ?_
    rw [sourceOf_cons, hLast, List.append_assoc, List.append_assoc] at hFront
    exact hFront
  · rw [sourceOf_append, hAgainSource, List.append_assoc]
  · intro rules afterPeriod
    have hPeriod : (again :: blanks).head?.any Lexeme.isPeriod =
        (lexeme :: back).head?.any Lexeme.isPeriod := hAkin.isPeriod_eq.symm
    refine essencesOf_append_congr rules hPeriod (fun afterPeriod => ?_) front _
    rw [essencesOf_lexeme_blanks again hKinds, essencesOf_lexeme_blanks lexeme hBlanks,
      hAkin.essence_eq]
  · intro hSolid
    cases front with
    | nil =>
      intro first hFirst
      rw [List.nil_append, List.head?_cons, Option.mem_some_iff] at hFirst
      rw [← hFirst]
      exact hAkin.solid (hSolid lexeme rfl)
    | cons first front => exact hSolid

end SqlScript
