import SqlScript.Proofs.Lexeme.Recase

/-!
# Lexical rules and letter case

The rules are asked in order, so a change of letter case must not make a rule speak that was silent
before. Rule by rule this module shows that it does not, and that the rule which speaks makes the
same lexeme (`LexicalRule.Caseless`): a quotation is opened in either case, and what stands behind
a lexeme only ends it.

## Results

* `readLexeme_recase`  — a lexeme stays the same if letters behind it change their case.
* `readLexeme_respell` — a word stays a word if its own letters do so too.
-/

namespace SqlScript

/-! ## Rules -/

/-- A rule is caseless if it speaks of a first character in either case or in none, and if what it
makes of some characters does not depend on the case of letters behind them. Behind a literal the
next character has to be the same. -/
structure LexicalRule.Caseless (rule : LexicalRule) : Prop where
  silent : ∀ {c c' : Char} {rest rest' : List Char}, c.toUpper = c'.toUpper →
    SameLetters rest rest' → rule c rest = none → rule c' rest' = none
  keeps : ∀ {c : Char} {front after after' : List Char} {lexeme : Lexeme},
    SameLetters after after' → rule c (front ++ after) = some (.ok lexeme) →
      lexeme.source = c :: front → (lexeme.kind = .literal → after.head? = after'.head?) →
      rule c (front ++ after') = some (.ok lexeme)

namespace LexicalRule

/-- A rule that goes by the first character speaks of both cases if their class is the same. -/
theorem silent_of_speaksOf {rule : LexicalRule} {p : Char → Bool} (hRule : rule.SpeaksOf p)
    (hp : CaseBlind p) {c c' : Char} {rest rest' : List Char} (hHead : c.toUpper = c'.toUpper)
    (h : rule c rest = none) : rule c' rest' = none :=
  hRule.silent (hp.eq hHead) h

/-- A rule that only looks at the letters of what follows keeps its lexemes. -/
theorem keeps_of_congr (rule : LexicalRule)
    (h : ∀ {c rest rest'}, SameLetters rest rest' → rule c rest = rule c rest') {c : Char}
    {front after after' : List Char} {lexeme : Lexeme} (hAfter : SameLetters after after')
    (hSaid : rule c (front ++ after) = some (.ok lexeme)) :
    rule c (front ++ after') = some (.ok lexeme) := by
  rw [← h ((SameLetters.refl front).append hAfter)]
  exact hSaid

/-- Blanks have no case, and a return only looks for a newline. -/
theorem blank_congr {c : Char} {rest rest' : List Char} (h : SameLetters rest rest') :
    blank c rest = blank c rest' := by
  have hNewline : rest.head? = some '\n' ↔ rest'.head? = some '\n' := h.head?_sign (by decide)
  unfold blank
  simp only [hNewline]

theorem caseless_blank : Caseless blank where
  silent hHead _ h := silent_of_speaksOf speaksOf_blank caseBlind_isBlank hHead h
  keeps hAfter h _ _ := keeps_of_congr blank blank_congr hAfter h

theorem caseless_terminator : Caseless terminator where
  silent hHead _ h :=
    silent_of_speaksOf speaksOf_terminator (caseBlind_of_letters (by decide)) hHead h
  keeps hAfter h _ _ := keeps_of_congr terminator (fun _ => rfl) hAfter h

/-- No operator has a letter in it. -/
theorem caseless_symbol : Caseless symbol where
  silent := by
    intro c c' rest rest' hHead hSame h
    unfold symbol at h ⊢
    rw [← symbolLexeme_congr (hSame.cons hHead)]
    exact h
  keeps hAfter h _ _ := by
    refine keeps_of_congr symbol (fun hSame => ?_) hAfter h
    simp only [symbol, symbolLexeme_congr (hSame.cons rfl)]

/-- A letter opens a literal in either case if the signs behind it do, which have no case
themselves. -/
theorem caseless_lettered : Caseless lettered where
  silent := by
    intro c c' rest rest' hHead hSame h
    have hOther : lettered c' rest = none := by
      unfold lettered at h ⊢
      rw [← hHead]
      split at h
      all_goals first | rfl | cases h
    cases hSome : lettered c' rest' with
    | none => rfl
    | some result =>
      -- The signs of the literal stand in the other text too.
      obtain ⟨signs, form, tail, hLetter, rfl, -, hForm⟩ := lettered_eq_form hSome
      obtain ⟨tail', rfl, -⟩ := hSame.symm.append_signs hLetter.recases.1
      rw [hForm] at hOther
      cases hOther
  keeps := by
    intro c front after after' lexeme hAfter h hSource _
    obtain ⟨signs, form, tail, hLetter, hFront, hResult, hForm⟩ := lettered_eq_form h
    obtain ⟨⟨more, hMore⟩, -⟩ := hLetter.exists_source hResult.symm
    obtain ⟨-, rfl⟩ := List.cons.inj (hSource.symm.trans hMore)
    rw [List.append_assoc, List.append_cancel_left_eq] at hFront
    subst hFront
    rw [List.append_assoc, hForm]
    refine congrArg some (hLetter.recases.2 hAfter hResult.symm ?_)
    rw [hMore, List.length_cons, List.length_append]
    omega

/-- A delimiter has no case, and quoted text is only left behind one. -/
theorem caseless_quoted : Caseless quoted where
  silent hHead _ h := silent_of_speaksOf speaksOf_quoted (caseBlind_of_letters (by decide)) hHead h
  keeps := by
    intro c front after after' lexeme hAfter h hSource _
    have hLength := congrArg List.length hSource
    unfold quoted at h ⊢
    split at h
    · next hSingle =>
      rw [if_pos hSingle]
      exact congrArg some (recases_stringLiteral [] (by decide) false hAfter (Option.some.inj h)
        hLength)
    · split at h
      · next hSingle hOther =>
        -- Neither of the delimiters of an identifier is a letter.
        have hSign : c.isAlpha = false := by
          rcases hOther with rfl | rfl <;> decide
        rw [if_neg hSingle, if_pos hOther]
        exact congrArg some (recases_delimitedIdentifier hSign hAfter (Option.some.inj h) hLength)
      · cases h

/-- A comment without a newline ends with the script, any other before its newline. -/
theorem lineComment_recase {tail after after' : List Char} (hAfter : SameLetters after after')
    (hSource : (lineComment (tail ++ after)).source = '-' :: '-' :: tail) :
    lineComment (tail ++ after') = lineComment (tail ++ after) := by
  have hFits : (lineComment (tail ++ after)).source.length ≤ tail.length + 2 := by
    rw [hSource]
    exact Nat.le_refl _
  -- What has no newline in it has taken the whole script.
  refine lineComment_append_stops hFits fun hLine => ?_
  cases after with
  | nil => rw [hAfter.eq_nil]
  | cons d rest =>
    have hLong := lineComment_source_length hLine (List.cons_ne_nil d rest)
    omega

/-- Both signs of a comment have no case. A line comment goes to its newline, whatever is before it.
-/
theorem caseless_comment : Caseless comment where
  silent := by
    -- If one text opened a comment the other would too, since the signs have no case.
    intro c c' rest rest' hHead hSame h
    unfold comment
    split
    · obtain ⟨tail, rfl, -⟩ := hSame.symm.cons_sign (by decide)
      rw [eq_of_toUpper_eq (by decide) hHead] at h
      cases h
    · obtain ⟨tail, rfl, -⟩ := hSame.symm.cons_sign (by decide)
      rw [eq_of_toUpper_eq (by decide) hHead] at h
      cases h
    · rfl
  keeps := by
    intro c front after after' lexeme hAfter h hSource _
    -- In either form the second sign is in the front, since the lexeme holds it.
    obtain ⟨rest, rfl, hRest, rfl⟩ | ⟨rest, rfl, hRest, hBlock⟩ := comment_ok h
    · obtain ⟨tail, rfl⟩ : ∃ tail, front = '-' :: tail :=
        ⟨_, (List.cons.inj hSource).2.symm⟩
      obtain ⟨-, rfl⟩ := List.cons.inj hRest
      exact congrArg (some ∘ Except.ok) (lineComment_recase hAfter hSource)
    · obtain ⟨body, -, hLexeme⟩ := blockComment_ok hBlock
      obtain ⟨tail, rfl⟩ : ∃ tail, front = '*' :: tail := by
        rw [hLexeme] at hSource
        exact ⟨_, (List.cons.inj hSource).2.symm⟩
      obtain ⟨-, rfl⟩ := List.cons.inj hRest
      exact congrArg some (recases_blockComment hAfter hBlock (congrArg List.length hSource))

theorem caseless_placeholder : Caseless placeholder where
  silent hHead _ h :=
    silent_of_speaksOf speaksOf_placeholder (caseBlind_of_letters (by decide)) hHead h
  keeps := by
    intro c front after after' lexeme hAfter h hSource _
    unfold placeholder at h ⊢
    split at h
    · next hMark =>
      cases h
      -- The digits end before the letter in either case.
      have hRun : (front ++ after).takeWhile isNumeric = front := (List.cons.inj hSource).2
      rw [if_pos hMark]
      simp only [placeholderLexeme]
      rw [hRun, takeWhile_append_run caseBlind_isNumeric (SameLetters.refl front) hAfter hRun]
    · cases h

/-- Whether a character starts a word or goes on with one does not depend on its case. -/
theorem caseless_word : Caseless word where
  silent hHead _ h := silent_of_speaksOf speaksOf_word caseBlind_isWordStart hHead h
  keeps := by
    intro c front after after' lexeme hAfter h hSource _
    unfold word at h ⊢
    split at h
    · next hStart =>
      cases h
      have hRun : (front ++ after).takeWhile isWordChar = front := (List.cons.inj hSource).2
      rw [if_pos hStart]
      simp only [wordLexeme]
      rw [hRun, takeWhile_append_run caseBlind_isWordChar (SameLetters.refl front) hAfter hRun]
    · cases h

/-- The signs of a word make one with the same characters. -/
theorem caseless_sign : Caseless sign where
  silent hHead _ h := silent_of_speaksOf speaksOf_sign (caseBlind_of_letters (by decide)) hHead h
  keeps := by
    intro c front after after' lexeme hAfter h hSource _
    unfold sign at h
    split at h
    · next rest hRest =>
      cases h
      -- Both signs are taken, and the second one stands in the front.
      obtain ⟨tail, rfl⟩ : ∃ tail, front = '@' :: tail := by
        obtain ⟨more, hMore⟩ := append_signLexeme ['@', '@'] rest
        exact ⟨more, (List.cons.inj (hSource.symm.trans hMore)).2⟩
      rw [List.cons_append, List.cons.injEq] at hRest
      obtain ⟨-, rfl⟩ := hRest
      have hSame := signLexeme_recase hAfter hSource
      simp [sign, hSame]
    · next hOther =>
      cases h
      have hSame := signLexeme_recase hAfter hSource
      have hSingle : (front ++ after').head? ≠ some '@' := by
        rw [Ne, ← ((SameLetters.refl front).append hAfter).head?_sign (by decide)]
        intro hHead
        obtain ⟨rest, hRest⟩ := List.head?_eq_some_iff.mp hHead
        exact hOther rest hRest
      rw [sign_of_single hSingle, hSame]
    · cases h
      have hSame := signLexeme_recase hAfter hSource
      simp [sign, hSame]
    · cases h

/-- A dollar sign has no case, and letters are in a tag in either one. -/
theorem caseless_dollar : Caseless dollar where
  silent hHead _ h := silent_of_speaksOf speaksOf_dollar (caseBlind_of_letters (by decide)) hHead h
  keeps := by
    intro c front after after' lexeme hAfter h hSource _
    unfold dollar at h ⊢
    split at h
    · next hMark =>
      rw [if_pos hMark]
      rw [hMark] at hSource
      exact congrArg some (dollarLexeme_recase hAfter (Option.some.inj h) hSource)
    · cases h

/-- Numbers are where the next character has to be the same, as `1L` is one lexeme and `1l` are two.
-/
theorem caseless_number : Caseless number where
  silent hHead _ h := silent_of_speaksOf speaksOf_number (caseBlind_of_letters (by decide)) hHead h
  keeps := by
    intro c front after after' lexeme hAfter h hSource hLiteral
    unfold number at h ⊢
    split at h
    · next hFirst =>
      cases h
      rw [if_pos hFirst]
      have hSame := @numberLexeme_recase (c :: front) after after' hAfter hSource hLiteral
      rw [List.cons_append, List.cons_append] at hSame
      rw [hSame]
    · cases h

/-- Every rule is caseless. -/
theorem caseless_of_mem_all {rule : LexicalRule} (h : rule ∈ all) : Caseless rule := by
  simp only [all, List.mem_cons, List.not_mem_nil, or_false] at h
  rcases h with rfl | rfl | rfl | rfl | rfl | rfl | rfl | rfl | rfl | rfl | rfl
  · exact caseless_blank
  · exact caseless_lettered
  · exact caseless_quoted
  · exact caseless_number
  · exact caseless_comment
  · exact caseless_terminator
  · exact caseless_symbol
  · exact caseless_sign
  · exact caseless_placeholder
  · exact caseless_word
  · exact caseless_dollar

/-! ## Words

Only the rule for words and the signs before a name make words. -/

/-- What the rule makes is no word. -/
def Wordless (rule : LexicalRule) : Prop :=
  ∀ {c : Char} {rest : List Char} {lexeme : Lexeme},
    rule c rest = some (.ok lexeme) → lexeme.kind ≠ .word

theorem wordless_blank : Wordless blank := by
  intro c rest lexeme h
  unfold blank at h
  repeat' split at h
  all_goals
    cases h
    try nofun

/-- Behind an opening letter there is a literal, or an operator in the case of raw strings. -/
theorem wordless_lettered : Wordless lettered := by
  intro c rest lexeme h hKind
  obtain ⟨signs, form, tail, hLetter, -, hResult, -⟩ := lettered_eq_form h
  -- A lettered form is a literal or an operator.
  have hOther := (hLetter.exists_source hResult.symm).2
  rw [hKind] at hOther
  exact absurd hOther (by decide)

/-- A delimited identifier is of a kind of its own. -/
theorem wordless_quoted : Wordless quoted := by
  intro c rest lexeme h
  obtain ⟨-, hString⟩ | ⟨-, hIdentifier⟩ := quoted_ok h
  · obtain ⟨-, -, hKind, -⟩ := quotedLiteral_ok hString
    rw [hKind]
    decide
  · obtain ⟨-, -, rfl⟩ := delimitedIdentifier_ok hIdentifier
    nofun

/-- The rule for numbers makes literals, and periods where no digit follows one. -/
theorem wordless_number : Wordless number := by
  intro c rest lexeme h hKind
  unfold number at h
  split at h
  · cases h
    -- A number is a literal, and a period is neither.
    unfold numberLexeme at hKind
    dsimp only at hKind
    repeat' split at hKind
    all_goals cases hKind
  · cases h

/-- Comments are of one kind, with two signs or to the end of the line. -/
theorem wordless_comment : Wordless comment := by
  intro c rest lexeme h
  obtain ⟨tail, -, -, rfl⟩ | ⟨tail, -, -, hBlock⟩ := comment_ok h
  · nofun
  · obtain ⟨-, -, rfl⟩ := blockComment_ok hBlock
    nofun

theorem wordless_terminator : Wordless terminator := by
  intro c rest lexeme h
  unfold terminator at h
  split at h
  · cases h
    nofun
  · cases h

theorem wordless_symbol : Wordless symbol := by
  intro c rest lexeme h
  unfold symbol symbolLexeme at h
  rw [Option.map_map] at h
  obtain ⟨spelling, -, hLexeme⟩ := Option.map_eq_some_iff.mp h
  cases hLexeme
  nofun

theorem wordless_placeholder : Wordless placeholder := by
  intro c rest lexeme h
  unfold placeholder at h
  split at h
  · cases h
    nofun
  · cases h

/-- A dollar quotation is a literal, and a dollar sign alone is an operator. -/
theorem wordless_dollar : Wordless dollar := by
  intro c rest lexeme h
  unfold dollar at h
  split at h
  · obtain ⟨-, -, -, -, rfl⟩ | ⟨-, -, -, -, rfl⟩ | rfl := dollarLexeme_ok (Option.some.inj h)
    · nofun
    · nofun
    · nofun
  · cases h

/-- A word is made by the rule for words, unless a sign opens it. -/
theorem word_of_kind {rule : LexicalRule} (hMem : rule ∈ all) {c : Char} {rest : List Char}
    {lexeme : Lexeme} (h : rule c rest = some (.ok lexeme)) (hKind : lexeme.kind = .word) :
    rule = word ∨ c = '@' ∨ c = '#' := by
  simp only [all, List.mem_cons, List.not_mem_nil, or_false] at hMem
  -- One case for each rule, in the order in which they are asked.
  rcases hMem with rfl | rfl | rfl | rfl | rfl | rfl | rfl | rfl | rfl | rfl | rfl
  · exact absurd hKind (wordless_blank h)
  · exact absurd hKind (wordless_lettered h)
  · exact absurd hKind (wordless_quoted h)
  · exact absurd hKind (wordless_number h)
  · exact absurd hKind (wordless_comment h)
  · exact absurd hKind (wordless_terminator h)
  · exact absurd hKind (wordless_symbol h)
  · exact .inr (by simpa using speaksOf_sign.opens h)
  · exact absurd hKind (wordless_placeholder h)
  · exact .inl rfl
  · exact absurd hKind (wordless_dollar h)

end LexicalRule

/-! ## All rules -/

/-- A lexeme stays the same if letters behind it change their case. Behind a literal the next
character has to be the same. -/
theorem readLexeme_recase {c : Char} {front after after' : List Char} {lexeme : Lexeme}
    (hAfter : SameLetters after after') (h : readLexeme c (front ++ after) = .ok lexeme)
    (hSource : lexeme.source = c :: front)
    (hLiteral : lexeme.kind = .literal → after.head? = after'.head?) :
    readLexeme c (front ++ after') = .ok lexeme := by
  -- Each rule is silent on both texts or says the same of them.
  refine readLexeme_transfer ?_ ?_ id h
  · intro rule hMem
    exact (LexicalRule.caseless_of_mem_all hMem).silent rfl
      ((SameLetters.refl front).append hAfter)
  · intro rule hMem hSaid
    exact (LexicalRule.caseless_of_mem_all hMem).keeps hAfter hSaid hSource hLiteral

/-- Directly behind a digit the letter case does make a difference. -/
example : lex ['1', 'L'] = ⟨[.verbatim .literal ['1', 'L']], none⟩ ∧
    lex ['1', 'l'] = ⟨[.verbatim .literal ['1'], .verbatim .word ['l']], none⟩ := by
  decide +kernel

/-- A word that no sign opens stays a word if letters of it and behind it change their case. -/
theorem readLexeme_respell {c c' : Char} {front front' after after' : List Char} {lexeme : Lexeme}
    (hWord : SameLetters (c :: front) (c' :: front')) (hAfter : SameLetters after after')
    (h : readLexeme c (front ++ after) = .ok lexeme) (hSource : lexeme.source = c :: front)
    (hKind : lexeme.kind = .word) (hSign : c ≠ '@' ∧ c ≠ '#') :
    readLexeme c' (front' ++ after') = .ok (.verbatim .word (c' :: front')) := by
  obtain ⟨hHead, hFront⟩ : c.toUpper = c'.toUpper ∧ SameLetters front front' := List.cons.inj hWord
  refine readLexeme_transfer ?_ ?_ ?_ h
  · intro rule hMem
    exact (LexicalRule.caseless_of_mem_all hMem).silent hHead (hFront.append hAfter)
  · intro rule hMem hSaid
    -- Only the rule for words has spoken of the first text.
    obtain rfl : rule = LexicalRule.word := by
      rcases LexicalRule.word_of_kind hMem hSaid hKind with hRule | hOpens | hOpens
      · exact hRule
      · exact absurd hOpens hSign.1
      · exact absurd hOpens hSign.2
    unfold LexicalRule.word at hSaid ⊢
    rw [← caseBlind_isWordStart.eq hHead]
    split at hSaid
    · next hStart =>
      cases hSaid
      have hRun : (front ++ after).takeWhile isWordChar = front := (List.cons.inj hSource).2
      rw [if_pos hStart]
      simp only [wordLexeme]
      rw [takeWhile_append_run caseBlind_isWordChar hFront hAfter hRun]
      rfl
    · cases hSaid
  · rintro rfl
    cases hKind

end SqlScript
