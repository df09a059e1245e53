import SqlScript.Proofs.Lexeme.Ending
import SqlScript.Proofs.Lexeme.Letters

/-!
# Lexemes and letter case

A word can be written in small or in capital letters without a change to how the script is cut into
lexemes. For a word itself that is no surprise, but its letters also take part in what is read
before it: a reader looks at the next character to see where it has to stop, and some letters have a
meaning behind or in front of other characters, as in `1e5`, `0x1F`, `7L`, `N'…'` and `U&'…'`.

This module goes through what is read before such a letter. Readers only leave at signs, so that
they end before the letter in either case (`Reader.ClosedBy`), and a form of literal that ends
there is the same (`Recases`). The one exception are numbers, since a small `x` and a capital `L`
go on with a number and their other cases do not; nothing is said of a letter directly behind them.

## Results

* `LetteredForm.recases`  — the literals with an opening letter.
* `numberLexeme_recase`   — numbers, if the next character stays the same.
* `dollarLexeme_recase`   — dollar quotations.
-/

namespace SqlScript

/-! ## Readers -/

section Readers

variable {σ : Type} {reader : Reader σ} {delimiter : Char}

/-- The reader leaves at every character but a delimiter, or at none. -/
def Reader.ClosedBy (delimiter : Char) (reader : Reader σ) : Prop :=
  ∀ state c, reader.step state c = .leave →
    c ≠ delimiter ∧ ∀ d, d ≠ delimiter → reader.step state d = .leave

/-- A reader that is closed by a sign ends before a letter in either case or in none. -/
theorem Reader.ClosedBy.carries (h : reader.ClosedBy delimiter)
    (hDelimiter : delimiter.isAlpha = false) {after after' : List Char}
    (hAfter : SameLetters after after') : reader.Carries after after' := by
  intro state hEnds
  cases after with
  | nil =>
    rw [hAfter.eq_nil]
    exact hEnds
  | cons c rest =>
    -- The next characters differ in case at most, so neither of them is the delimiter.
    obtain ⟨d, rest', rfl, hHead, -⟩ := hAfter.cases_cons
    obtain ⟨hNe, hAll⟩ := h state c hEnds
    exact hAll d fun hEq => hNe (eq_of_toUpper_eq hDelimiter (hHead.trans (congrArg _ hEq)))

/-- A sealed reader is closed by anything. -/
theorem Reader.Sealed.closedBy (h : reader.Sealed) (delimiter : Char) :
    reader.ClosedBy delimiter :=
  fun state c hLeave => absurd hLeave (h.ne_leave state c)

end Readers

/-- Quoted text is left behind a delimiter, unless the delimiter is doubled. -/
theorem closedBy_quotedReader (delimiter : Char) (escapes : Bool) (unclosed : Cause) :
    (quotedReader delimiter escapes unclosed).ClosedBy delimiter := by
  intro state c hLeave
  cases state with
  | inside =>
    simp only [quotedReader] at hLeave
    repeat' split at hLeave
    all_goals cases hLeave
  | afterDelimiter =>
    -- Behind a delimiter the reader leaves at every other character.
    have hNe : c ≠ delimiter := by
      rintro rfl
      simp [quotedReader] at hLeave
    exact ⟨hNe, fun d hd => by simp [quotedReader, hd]⟩
  | afterBackslash => cases hLeave

/-- A string with escapes is left behind its quote only, as escapes keep the reader inside. -/
theorem closedBy_escapeReader : escapeReader.ClosedBy singleQuote := by
  intro state c hLeave
  -- A quote has to be followed by another one, or else it has closed the literal.
  by_cases hState : state = .afterQuote
  · subst hState
    have hNe : c ≠ singleQuote := by
      rintro rfl
      simp [escapeReader, EscapeState.step] at hLeave
    exact ⟨hNe, fun d hd => by simp [escapeReader, EscapeState.step, hd]⟩
  · exact absurd hLeave (EscapeState.goesOn_step hState c).ne_leave

theorem closedBy_unicodeReader : unicodeReader.ClosedBy singleQuote := by
  intro state c hLeave
  -- As above, the reader leaves in one state only.
  by_cases hState : state = .afterQuote
  · subst hState
    have hNe : c ≠ singleQuote := by
      rintro rfl
      simp [unicodeReader, UnicodeState.step] at hLeave
    exact ⟨hNe, fun d hd => by simp [unicodeReader, UnicodeState.step, hd]⟩
  · exact absurd hLeave (UnicodeState.goesOn_step hState c).ne_leave

/-! ## Forms -/

/-- A lexeme of the form stays the same if letters behind it change their case. -/
def Recases (opening : Nat) (form : List Char → Except Fault Lexeme) : Prop :=
  ∀ {front after after' : List Char} {lexeme : Lexeme}, SameLetters after after' →
    form (front ++ after) = .ok lexeme → lexeme.source.length = front.length + opening →
      form (front ++ after') = .ok lexeme

/-- What goes on the same before both texts stays the same if the letters behind it change. -/
theorem recases_of_continues {opening : Nat} {form : List Char → Except Fault Lexeme}
    (h : ∀ {after after'}, SameLetters after after' → Continues opening form after after') :
    Recases opening form :=
  fun hAfter hForm hLength => h hAfter hForm (Nat.le_of_eq hLength)

/-- A literal stays the same if its reader is closed by a sign. -/
theorem recases_quotedLiteral {σ : Type} {reader : Reader σ} {closing : Char}
    (hClosed : reader.ClosedBy closing) (hClosing : closing.isAlpha = false) (state : σ)
    (kind : LexemeKind) (letters : List Char) (delimiter : Char)
    (place : List Char → List Char) :
    Recases (letters.length + 1) fun rest =>
      quotedLiteral kind letters delimiter place (reader.read state rest) :=
  fun hAfter h hLength => continues_quotedLiteral (hClosed.carries hClosing hAfter) state kind
    letters delimiter place h (Nat.le_of_eq hLength)

theorem recases_stringLiteral (letters : List Char) {delimiter : Char}
    (hDelimiter : delimiter.isAlpha = false) (escapes : Bool) :
    Recases (letters.length + 1) (stringLiteral letters delimiter escapes) :=
  recases_quotedLiteral (closedBy_quotedReader _ _ _) hDelimiter _ _ letters _ _

theorem recases_escapeString (letter : Char) : Recases 2 (escapeString letter) :=
  recases_quotedLiteral closedBy_escapeReader (by decide) _ _ [letter] _ _

theorem recases_unicodeString (letter : Char) : Recases 3 (unicodeString letter) := by
  unfold unicodeString
  exact recases_quotedLiteral closedBy_unicodeReader (by decide) _ _ [letter, '&'] _ _

theorem recases_delimitedIdentifier {delimiter : Char} (hDelimiter : delimiter.isAlpha = false) :
    Recases 1 (delimitedIdentifier delimiter) :=
  recases_of_continues fun hAfter => continues_delimitedIdentifier
    ((closedBy_quotedReader _ _ _).carries hDelimiter hAfter)

/-- A block comment ends by itself, so it does not matter what follows. -/
theorem recases_blockComment : Recases 2 blockComment :=
  recases_of_continues fun hAfter => continues_blockComment
    ((sealed_blockCommentReader.closedBy singleQuote).carries (by decide) hAfter)

/-- The delimiters behind the first one of a raw string are signs. -/
theorem recases_rawString (letter : Char) {delimiter : Char}
    (hDelimiter : delimiter.isAlpha = false) : Recases 2 (rawString letter delimiter) := by
  intro front after after' lexeme hAfter h hLength
  -- Two more delimiters open a triple quotation, and they are in both texts or in neither.
  have hSame : ((front ++ after).take 2).takeWhile (· = delimiter) =
      ((front ++ after').take 2).takeWhile (· = delimiter) := by
    refine takeWhile_eq_of_signs (caseBlind_eq hDelimiter) ?_
      (((SameLetters.refl front).append hAfter).take 2)
    intro c hc
    rw [of_decide_eq_true hc]
    exact hDelimiter
  unfold rawString at h ⊢
  rw [← hSame]
  split at h
  · exact recases_quotedLiteral (closedBy_quotedReader _ _ _) hDelimiter _ _ [letter] _ _ hAfter h
      hLength
  · exact h
  · dsimp only at h ⊢
    split at h
    · next body hBody =>
      cases h
      -- The lexeme has four characters before its body, so two of them are in the front.
      have hTwo : 2 ≤ front.length := by
        simp only [List.length_cons, List.length_append, List.length_nil] at hLength
        omega
      rw [List.drop_append_of_le_length hTwo] at hBody ⊢
      have hCarries : (tripleReader delimiter).Carries after after' :=
        ((sealed_tripleReader delimiter).closedBy delimiter).carries hDelimiter hAfter
      have hShorter : body.source.length ≤ (front.drop 2).length := by
        rw [List.length_drop]
        simp only [List.length_cons, List.length_append, List.length_nil] at hLength
        omega
      rw [Reader.read_append hCarries hBody hShorter]
    · cases h

/-! ## Literals with an opening letter -/

theorem not_isAlpha_of_quote {delimiter : Char} (h : delimiter ∈ [singleQuote, doubleQuote]) :
    delimiter.isAlpha = false := by
  simp only [List.mem_cons, List.not_mem_nil, or_false] at h
  rcases h with rfl | rfl <;> decide

/-- The literals with an opening letter stay the same if letters behind them change their case, and
the signs that make the letter an opening one have no case. -/
theorem LetteredForm.recases {letter : Char} {signs : List Char}
    {form : List Char → Except Fault Lexeme} (h : LetteredForm letter signs form) :
    (∀ sign ∈ signs, sign.isAlpha = false) ∧ Recases (signs.length + 1) form := by
  -- The signs behind the letter are a quote, and for code points an ampersand in front of it.
  cases h with
  | string hDelimiter escapes =>
    have hSign := not_isAlpha_of_quote hDelimiter
    exact ⟨by simpa using hSign, recases_stringLiteral [letter] hSign escapes⟩
  | raw hDelimiter =>
    have hSign := not_isAlpha_of_quote hDelimiter
    exact ⟨by simpa using hSign, recases_rawString letter hSign⟩
  | escape =>
    have hSign : singleQuote.isAlpha = false := by decide
    exact ⟨by simpa using hSign, recases_escapeString letter⟩
  | unicode =>
    have hSigns : ('&').isAlpha = false ∧ singleQuote.isAlpha = false := by decide
    exact ⟨by simpa using hSigns, recases_unicodeString letter⟩

/-! ## Numbers

Digits, periods and signs have no letter case, so a number only meets a letter where an exponent, a
suffix or the second character of a hexadecimal number may stand. -/

section Numbers

variable {chars chars' after after' : List Char}

/-- Digits are no letters. -/
theorem not_isAlpha_of_isDigit (c : Char) (h : c.isDigit = true) : c.isAlpha = false := by
  by_contra hAlpha
  -- It is enough to look at the small letters, as digits have no case.
  obtain ⟨d, hSmall, hCase⟩ := exists_smallLetter (Bool.not_eq_false _ ▸ hAlpha)
  have hAll : (smallLetters.all fun d => !d.isDigit) = true := by decide
  have hOther := List.all_eq_true.mp hAll d hSmall
  rw [caseBlind_isDigit.eq hCase, h] at hOther
  cases hOther

/-- A run of digits ends at a letter in either case. -/
theorem digits_congr (h : SameLetters chars chars') :
    chars.takeWhile Char.isDigit = chars'.takeWhile Char.isDigit :=
  takeWhile_eq_of_signs caseBlind_isDigit not_isAlpha_of_isDigit h

/-- A fraction is opened by a period, which has no case, and goes on with digits. -/
theorem fractionOf_congr (h : SameLetters chars chars') : fractionOf chars = fractionOf chars' := by
  unfold fractionOf
  split
  · obtain ⟨rest', rfl, hRest⟩ := h.cons_sign (by decide)
    exact congrArg _ (digits_congr hRest)
  · next hOther =>
    -- The period is not in the other text either.
    split
    · obtain ⟨rest, rfl, -⟩ := h.symm.cons_sign (by decide)
      exact absurd rfl (hOther rest)
    · rfl

theorem signOf_congr (h : SameLetters chars chars') : signOf chars = signOf chars' := by
  unfold signOf
  split
  · obtain ⟨rest', rfl, -⟩ := h.cons_sign (by decide)
    rfl
  · obtain ⟨rest', rfl, -⟩ := h.cons_sign (by decide)
    rfl
  · next hPlus hMinus =>
    split
    · obtain ⟨rest, rfl, -⟩ := h.symm.cons_sign (by decide)
      exact absurd rfl (hPlus rest)
    · obtain ⟨rest, rfl, -⟩ := h.symm.cons_sign (by decide)
      exact absurd rfl (hMinus rest)
    · rfl

/-- The exponent of a number is the same if its letter is. -/
theorem exponentOf_congr (hHead : chars.head? = chars'.head?) (h : SameLetters chars chars') :
    exponentOf chars = exponentOf chars' := by
  cases chars with
  | nil => rw [h.eq_nil]
  | cons c rest =>
    obtain ⟨rest', rfl⟩ := List.head?_eq_some_iff.mp hHead.symm
    have hRest : SameLetters rest rest' := h.drop 1
    simp only [exponentOf]
    rw [signOf_congr hRest, digits_congr (hRest.drop _)]

/-- A suffix is one letter, and its case matters: only the capital one goes on with a number. -/
theorem suffixOf_congr (h : chars.head? = chars'.head?) : suffixOf chars = suffixOf chars' := by
  cases chars with
  | nil => rw [List.head?_eq_none_iff.mp h.symm]
  | cons c rest =>
    obtain ⟨rest', rfl⟩ := List.head?_eq_some_iff.mp h.symm
    unfold suffixOf
    split <;> simp_all

theorem head?_append_congr (front : List Char) (h : after.head? = after'.head?) :
    (front ++ after).head? = (front ++ after').head? := by
  rw [List.head?_append, List.head?_append, h]

/-- An exponent and a suffix that end before a text end before each other one that starts with the
same character. -/
theorem exponentOf_suffixOf_recase {tail exponent suffix : List Char}
    (hAfter : SameLetters after after') (hHead : after.head? = after'.head?)
    (hExponent : exponentOf (tail ++ after) = exponent)
    (hSuffix : suffixOf ((tail ++ after).drop exponent.length) = suffix)
    (hTail : tail = exponent ++ suffix) :
    exponentOf (tail ++ after') = exponent ∧
      suffixOf ((tail ++ after').drop exponent.length) = suffix := by
  -- The suffix is looked for behind the exponent, where both texts go on with the suffix.
  constructor
  · rw [← hExponent]
    exact exponentOf_congr (head?_append_congr tail hHead.symm)
      ((SameLetters.refl tail).append hAfter.symm)
  · rw [← hSuffix]
    simp only [hTail, List.append_assoc, List.drop_left]
    exact suffixOf_congr (head?_append_congr suffix hHead.symm)

/-- The digits and the fraction that a number starts with. -/
def decimalOf (chars : List Char) : List Char :=
  chars.takeWhile Char.isDigit ++ fractionOf (chars.drop (chars.takeWhile Char.isDigit).length)

/-- The part of a number in front of its exponent has no letters. -/
theorem decimalOf_congr (h : SameLetters chars chars') : decimalOf chars = decimalOf chars' := by
  unfold decimalOf
  rw [digits_congr h, fractionOf_congr (h.drop _)]

/-- A number that starts with a zero and a small `x` is shown as a hexadecimal literal. -/
theorem numberLexeme_hex (rest : List Char) :
    numberLexeme ('0' :: 'x' :: rest) =
      ⟨.literal, 'X' :: singleQuote :: (rest.takeWhile (isDigitOf 16) ++ [singleQuote]),
        '0' :: 'x' :: rest.takeWhile (isDigitOf 16)⟩ := by
  unfold numberLexeme
  simp [Char.isDigit]

/-- Other numbers start with a decimal. -/
theorem numberLexeme_of_not_hex (h : ¬ ∃ rest, chars = '0' :: 'x' :: rest) :
    numberLexeme chars =
      if decimalOf chars = ['.'] then .verbatim .period (decimalOf chars)
      else
        let rest := chars.drop (decimalOf chars).length
        .verbatim .literal (decimalOf chars ++ exponentOf rest ++
          suffixOf (rest.drop (exponentOf rest).length)) := by
  unfold numberLexeme
  refine if_neg fun hHex => h ?_
  -- The digits are a zero alone and an `x` comes next, which is how the text would start.
  obtain ⟨hZero, hX⟩ := hHex
  obtain ⟨more, hMore⟩ := List.takeWhile_prefix Char.isDigit (l := chars)
  rw [hZero] at hMore hX
  rw [← hMore] at hX ⊢
  have hSecond : more.head? = some 'x' := hX
  obtain ⟨rest, rfl⟩ := List.head?_eq_some_iff.mp hSecond
  exact ⟨rest, rfl⟩

/-- A hexadecimal number ends before the first character that is no digit of it. -/
theorem numberLexeme_recase_hex {rest : List Char} (hAfter : SameLetters after after')
    (hHex : chars ++ after = '0' :: 'x' :: rest)
    (hSource : (numberLexeme (chars ++ after)).source = chars) :
    numberLexeme (chars ++ after') = numberLexeme (chars ++ after) := by
  rw [hHex, numberLexeme_hex] at hSource ⊢
  generalize hDigits : rest.takeWhile (isDigitOf 16) = digits at hSource
  subst hSource
  obtain rfl : rest = digits ++ after := by simpa using hHex.symm
  have hRun := takeWhile_append_run caseBlind_isHexDigit (SameLetters.refl digits) hAfter hDigits
  rw [List.cons_append, List.cons_append, numberLexeme_hex, hRun]

/-- If a text starts with a decimal, an `x` after its zero cannot come from behind it. -/
theorem not_hex_recase {tail : List Char} (hAfter : SameLetters after after')
    (hHead : after.head? = after'.head?) (hChars : chars = decimalOf (chars ++ after) ++ tail)
    (h : ¬ ∃ rest, chars ++ after = '0' :: 'x' :: rest) :
    ¬ ∃ rest, chars ++ after' = '0' :: 'x' :: rest := by
  rintro ⟨rest, hRest⟩
  have hDecimal : decimalOf (chars ++ after) = ['0'] := by
    rw [decimalOf_congr ((SameLetters.refl chars).append hAfter), hRest]
    rfl
  rw [hDecimal, List.singleton_append] at hChars
  subst hChars
  have hTail : tail ++ after' = 'x' :: rest := (List.cons.inj hRest).2
  have hNext : (tail ++ after').head? = some 'x' := by
    rw [hTail]
    rfl
  -- The next character is the same in both texts, so the `x` was there before.
  rw [← head?_append_congr tail hHead] at hNext
  obtain ⟨others, hOthers⟩ := List.head?_eq_some_iff.mp hNext
  exact h ⟨others, congrArg (List.cons '0') hOthers⟩

/-- A decimal ends where neither an exponent nor a suffix goes on. -/
theorem numberLexeme_recase_decimal (hAfter : SameLetters after after')
    (hHead : after.head? = after'.head?) (hHex : ¬ ∃ rest, chars ++ after = '0' :: 'x' :: rest)
    (hPeriod : decimalOf (chars ++ after) ≠ ['.'])
    (hSource : (numberLexeme (chars ++ after)).source = chars) :
    numberLexeme (chars ++ after') = numberLexeme (chars ++ after) := by
  have hDecimal : decimalOf (chars ++ after') = decimalOf (chars ++ after) :=
    decimalOf_congr ((SameLetters.refl chars).append hAfter.symm)
  have hSaid := numberLexeme_of_not_hex hHex
  rw [hSaid, if_neg hPeriod] at hSource
  dsimp only [Lexeme.verbatim] at hSource
  generalize hExponent : exponentOf ((chars ++ after).drop (decimalOf (chars ++ after)).length) =
    exponent at hSource
  generalize hSuffix : suffixOf (((chars ++ after).drop (decimalOf (chars ++ after)).length).drop
    exponent.length) = suffix at hSource
  have hChars : chars = decimalOf (chars ++ after) ++ (exponent ++ suffix) :=
    hSource.symm.trans (List.append_assoc _ _ _)
  -- Behind the decimal both texts go on with the same exponent and suffix.
  have hRest : ∀ back, (chars ++ back).drop (decimalOf (chars ++ after)).length =
      (exponent ++ suffix) ++ back := by
    intro back
    generalize decimalOf (chars ++ after) = decimal at hChars ⊢
    rw [hChars, List.append_assoc, List.drop_left]
  rw [hRest] at hExponent hSuffix
  obtain ⟨hExponent', hSuffix'⟩ := exponentOf_suffixOf_recase hAfter hHead hExponent hSuffix rfl
  rw [hSaid, numberLexeme_of_not_hex (not_hex_recase hAfter hHead hChars hHex), hDecimal,
    if_neg hPeriod, if_neg hPeriod]
  simp only [hRest, hExponent, hSuffix, hExponent', hSuffix']

/-- A number stays the same if letters behind it change their case. Directly behind a literal the
next character has to be the same, since it may go on with the number in one case only. -/
theorem numberLexeme_recase (hAfter : SameLetters after after')
    (hSource : (numberLexeme (chars ++ after)).source = chars)
    (hLiteral : (numberLexeme (chars ++ after)).kind = .literal → after.head? = after'.head?) :
    numberLexeme (chars ++ after') = numberLexeme (chars ++ after) := by
  by_cases hHex : ∃ rest, chars ++ after = '0' :: 'x' :: rest
  · obtain ⟨rest, hRest⟩ := hHex
    exact numberLexeme_recase_hex hAfter hRest hSource
  · have hSaid := numberLexeme_of_not_hex hHex
    by_cases hPeriod : decimalOf (chars ++ after) = ['.']
    · have hDecimal : decimalOf (chars ++ after') = ['.'] := by
        rw [decimalOf_congr ((SameLetters.refl chars).append hAfter.symm), hPeriod]
      -- A period is no zero, so it opens no hexadecimal number either.
      have hHex' : ¬ ∃ rest, chars ++ after' = '0' :: 'x' :: rest := by
        rintro ⟨rest, hRest⟩
        rw [hRest] at hDecimal
        cases hDecimal
      rw [hSaid, numberLexeme_of_not_hex hHex', if_pos hPeriod, if_pos hDecimal, hPeriod, hDecimal]
    · refine numberLexeme_recase_decimal hAfter (hLiteral ?_) hHex hPeriod hSource
      rw [hSaid, if_neg hPeriod]
      rfl

end Numbers

/-! ## Operators, words and dollar quotations -/

/-- A spelling without letters is found in both cases. -/
theorem isPrefixOf_congr {spelling : List Char} (hSpelling : ∀ c ∈ spelling, c.isAlpha = false)
    {chars chars' : List Char} (h : SameLetters chars chars') :
    spelling.isPrefixOf chars = spelling.isPrefixOf chars' := by
  -- The texts can be exchanged, so one direction is enough.
  have hOne : ∀ {chars chars' : List Char}, SameLetters chars chars' →
      spelling.isPrefixOf chars = true → spelling.isPrefixOf chars' = true := by
    intro chars chars' hSame hPrefix
    obtain ⟨rest, rfl⟩ := List.isPrefixOf_iff_prefix.mp hPrefix
    obtain ⟨rest', rfl, -⟩ := hSame.append_signs hSpelling
    exact List.isPrefixOf_iff_prefix.mpr (List.prefix_append spelling rest')
  exact Bool.eq_iff_iff.mpr ⟨hOne h, hOne h.symm⟩

/-- The same operator is found in front of both texts, as no spelling has a letter in it. -/
theorem symbolLexeme_congr {chars chars' : List Char} (h : SameLetters chars chars') :
    symbolLexeme chars = symbolLexeme chars' := by
  have hSigns : (symbolSpellings.all fun spelling => spelling.all fun c => !c.isAlpha) = true := by
    decide
  unfold symbolLexeme
  congr 1
  -- The first spelling that is found in one text is the first one in the other.
  refine List.find?_congr fun spelling hMem => isPrefixOf_congr (fun c hc => ?_) h
  have hSign := List.all_eq_true.mp (List.all_eq_true.mp hSigns spelling hMem) c hc
  simpa using hSign

/-- What the signs of a word open starts with them. -/
theorem append_signLexeme (signs rest : List Char) :
    ∃ more, (signLexeme signs rest).source = signs ++ more := by
  unfold signLexeme
  split
  · exact ⟨[], (List.append_nil signs).symm⟩
  · split
    · exact ⟨[], (List.append_nil signs).symm⟩
    · exact ⟨_, List.append_assoc signs _ _⟩

/-- The signs of a word take up the same characters. -/
theorem signLexeme_recase {signs front after after' : List Char} (hAfter : SameLetters after after')
    (hSource : (signLexeme signs (front ++ after)).source = signs ++ front) :
    signLexeme signs (front ++ after') = signLexeme signs (front ++ after) := by
  cases front with
  | cons d front =>
    simp only [List.cons_append, signLexeme] at hSource ⊢
    split
    · rfl
    · next hSpace =>
      rw [if_neg hSpace] at hSource
      have hRun : (front ++ after).takeWhile isWordChar = front := by
        simpa [wordLexeme, Lexeme.verbatim] using hSource
      simp only [wordLexeme]
      rw [hRun, takeWhile_append_run caseBlind_isWordChar (SameLetters.refl front) hAfter hRun]
  | nil =>
    cases after with
    | nil => rw [hAfter.eq_nil]
    | cons d rest =>
      by_cases hSpace : d = ' '
      · subst hSpace
        obtain ⟨rest', rfl, -⟩ := hAfter.cons_sign (by decide)
        rfl
      · -- Before another character the signs do not stand alone.
        simp [signLexeme, hSpace, wordLexeme, Lexeme.verbatim] at hSource

theorem dollarReader_carries {after after' : List Char} (hAfter : SameLetters after after') :
    dollarReader.Carries after after' :=
  (sealed_dollarReader.closedBy singleQuote).carries (by decide) hAfter

theorem tagReader_carries (tag : List Char) {after after' : List Char}
    (hAfter : SameLetters after after') : (tagReader tag).Carries after after' :=
  ((sealed_tagReader tag).closedBy singleQuote).carries (by decide) hAfter

/-- Two dollar signs open a quotation that ends at the next two. -/
theorem dollarLexeme_recase_double {rest front after after' : List Char} {lexeme : Lexeme}
    (hAfter : SameLetters after after') (hRest : front ++ after = '$' :: rest)
    (h : dollarLexeme ('$' :: rest) = .ok lexeme) (hSource : lexeme.source = '$' :: front) :
    dollarLexeme (front ++ after') = .ok lexeme := by
  obtain ⟨body, -, rfl⟩ := dollarLiteral_ok h
  obtain ⟨-, rfl⟩ := List.cons.inj hSource
  obtain rfl : rest = body.source ++ after := (List.cons.inj hRest).2.symm
  exact continues_dollarLiteral (dollarReader_carries hAfter) false ['$', '$'] h (by
    simp [Lexeme.verbatim])

/-- A tag does not reach beyond its dollar sign, and the quotation ends with the tag in either
case. -/
theorem dollarLexeme_recase_tag {tag text front after after' : List Char} {lexeme : Lexeme}
    (hAfter : SameLetters after after') (hTag : (front ++ after).takeWhile isTagChar = tag)
    (hText : (front ++ after).drop tag.length = '$' :: text)
    (hSingle : (front ++ after').head? ≠ some '$')
    (h : dollarLiteral ('$' :: tag ++ ['$']) ((tagReader tag).read .inside text) = .ok lexeme)
    (hSource : lexeme.source = '$' :: front) : dollarLexeme (front ++ after') = .ok lexeme := by
  obtain ⟨body, -, hLexeme⟩ := dollarLiteral_ok h
  obtain rfl : front = tag ++ '$' :: body.source := by
    rw [hLexeme] at hSource
    simpa [Lexeme.verbatim] using hSource.symm
  obtain rfl : text = body.source ++ after := by simpa using hText.symm
  -- The tag ends at its dollar sign, so its run does not come near the letters behind.
  have hRun : (tag ++ '$' :: body.source ++ after').takeWhile isTagChar = tag := by
    rw [List.append_assoc] at hTag ⊢
    exact takeWhile_append_run caseBlind_isTagChar (SameLetters.refl tag)
      ((SameLetters.refl ('$' :: body.source)).append hAfter) hTag
  have hRest : (tag ++ '$' :: body.source ++ after').drop tag.length =
      '$' :: (body.source ++ after') := by simp
  rw [LexicalRule.dollarLexeme_of_single hSingle, hRun, hRest]
  refine continues_dollarLiteral (tagReader_carries tag hAfter) .inside _ h ?_
  simp only [hSource, List.length_append, List.length_cons, List.length_nil]
  omega

/-- A dollar sign without a quotation ends before the first character that is none of its own. -/
theorem dollarLexeme_recase_bare {front after after' : List Char}
    (hAfter : SameLetters after after')
    (hRun : (front ++ after).takeWhile isTagChar = front) (hOther : ∀ rest, after ≠ '$' :: rest)
    (hSingle : (front ++ after').head? ≠ some '$') :
    dollarLexeme (front ++ after') = .ok (.verbatim .operator ('$' :: front)) := by
  have hRun' := takeWhile_append_run caseBlind_isTagChar (SameLetters.refl front) hAfter hRun
  rw [LexicalRule.dollarLexeme_of_single hSingle, hRun', List.drop_left]
  split
  · -- No dollar sign follows, as none follows in the other text.
    obtain ⟨rest, rfl, -⟩ := hAfter.symm.cons_sign (by decide)
    exact absurd rfl (hOther rest)
  · rfl

/-- What a dollar sign opens stays the same if letters behind it change their case: a quotation in
bare or in tagged dollars, or a dollar sign alone. -/
theorem dollarLexeme_recase {front after after' : List Char} {lexeme : Lexeme}
    (hAfter : SameLetters after after') (h : dollarLexeme (front ++ after) = .ok lexeme)
    (hSource : lexeme.source = '$' :: front) : dollarLexeme (front ++ after') = .ok lexeme := by
  by_cases hDouble : (front ++ after).head? = some '$'
  · obtain ⟨rest, hRest⟩ := List.head?_eq_some_iff.mp hDouble
    rw [hRest] at h
    exact dollarLexeme_recase_double hAfter hRest h hSource
  · -- A dollar sign has no case, so a second one follows in both texts or in neither.
    have hSingle : (front ++ after').head? ≠ some '$' :=
      mt (((SameLetters.refl front).append hAfter).head?_sign (by decide)).mpr hDouble
    rw [LexicalRule.dollarLexeme_of_single hDouble] at h
    split at h
    · next text hText => exact dollarLexeme_recase_tag hAfter rfl hText hSingle h hSource
    · next hOther =>
      cases h
      obtain ⟨-, hRun⟩ := List.cons.inj hSource
      rw [hRun, List.drop_left] at hOther
      rw [hRun]
      exact dollarLexeme_recase_bare hAfter hRun hOther hSingle

end SqlScript
