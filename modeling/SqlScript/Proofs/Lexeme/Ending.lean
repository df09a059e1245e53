import Mathlib.Data.List.Basic
import SqlScript.Proofs.Lexeme.Seam

/-!
# How lexemes end

A lexeme that starts with more than a blank hardly ever ends in one: a number, a word or an
operator holds no blank at all, and quoted text and block comments end in their closing signs. What
is left are the line comments and the words whose signs swallow the next character.

This matters where a statement is trimmed. If the trimming goes through a lexeme, then what is left
of that lexeme is loose, and a loose opening is read again before a newline and at the end of a
script.

## Results

* `readLexeme_solidEnd`  — a lexeme ends in no blank, or it is one of the two exceptions.
* `loose_of_trail`       — what is left of a lexeme without the blanks at its end is loose.
* `reread_loose`         — a loose opening is a lexeme again, which takes up a newline after it.
-/

namespace SqlScript

/-! ## Last characters -/

/-- The characters have a last one, and it is no blank. -/
def SolidEnd (chars : List Char) : Prop :=
  ∃ front last, chars = front ++ [last] ∧ isBlank last = false

/-- What stands in front of characters does not matter for how they end. -/
theorem SolidEnd.append {back : List Char} (h : SolidEnd back) (front : List Char) :
    SolidEnd (front ++ back) := by
  obtain ⟨middle, last, rfl, hLast⟩ := h
  exact ⟨front ++ middle, last, (List.append_assoc ..).symm, hLast⟩

theorem solidEnd_of_all {chars : List Char} (hNil : chars ≠ [])
    (h : ∀ c ∈ chars, isBlank c = false) : SolidEnd chars := by
  obtain ⟨front, last, rfl⟩ := (List.eq_nil_or_concat' chars).resolve_left hNil
  exact ⟨front, last, rfl, h last (by simp)⟩

/-- Characters that end in no blank do not end in blanks. -/
theorem SolidEnd.trail_eq_nil {front trail : List Char} (h : SolidEnd (front ++ trail))
    (hTrail : ∀ c ∈ trail, isBlank c = true) : trail = [] := by
  obtain ⟨middle, last, hSame, hLast⟩ := h
  by_contra hNil
  obtain ⟨blanks, c, rfl⟩ := (List.eq_nil_or_concat' trail).resolve_left hNil
  rw [← List.append_assoc] at hSame
  obtain ⟨-, hEnd⟩ := List.append_inj' hSame rfl
  rw [List.singleton_inj] at hEnd
  rw [hTrail last (by simp [hEnd])] at hLast
  cases hLast

/-- Every blank is a stop, so what is no stop is no blank. -/
theorem not_isBlank {c : Char} (h : isStop c = false) : isBlank c = false := by
  by_contra hBlank
  rw [Bool.not_eq_false] at hBlank
  rw [isStop_of_isBlank hBlank] at h
  cases h

/-- A class without stops is a class without blanks. -/
theorem not_isBlank_of_class {p : Char → Bool} (hp : ∀ c, isStop c = true → p c = false) {c : Char}
    (h : p c = true) : isBlank c = false := by
  by_contra hBlank
  rw [Bool.not_eq_false] at hBlank
  rw [hp c (isStop_of_isBlank hBlank)] at h
  cases h

/-- None of the signs that a lexeme may be opened or closed by is a blank. -/
theorem not_isBlank_of_sign {c : Char} (h : c ∈ lexicalSigns) : isBlank c = false := by
  by_contra hBlank
  rw [Bool.not_eq_false] at hBlank
  exact not_mem_lexicalSigns (isStop_of_isBlank hBlank) h

/-- A run of characters of a class without stops holds no blank. -/
theorem not_isBlank_of_takeWhile {p : Char → Bool} (hp : ∀ c, isStop c = true → p c = false)
    {chars : List Char} {c : Char} (h : c ∈ chars.takeWhile p) : isBlank c = false :=
  not_isBlank_of_class hp (List.mem_takeWhile_imp h)

/-! ## Readers -/

/-- A reader is tight if it can only come to an end after a character that is no blank. -/
structure Reader.Tight {σ : Type} (reader : Reader σ) : Prop where
  take : ∀ {state next : σ} {c : Char} {text : List Char}, reader.step state c = .take next text →
    reader.atEnd next = none → isBlank c = false
  finish : ∀ {state : σ} {c : Char}, reader.step state c = .finish → isBlank c = false
  leave : ∀ {state : σ} {c : Char}, reader.step state c = .leave → reader.atEnd state = none

/-- What a tight reader takes ends in no blank, unless it takes nothing where the script may end. -/
theorem Reader.solidEnd_of_read {σ : Type} {reader : Reader σ} (hTight : reader.Tight) {state : σ}
    {chars : List Char} {body : Body} (h : reader.read state chars = .ok body) :
    SolidEnd body.source ∨ body.source = [] ∧ reader.atEnd state = none := by
  induction chars generalizing state body with
  | nil =>
    rw [read_nil] at h
    split at h
    · next hNone =>
      cases h
      exact .inr ⟨rfl, hNone⟩
    · cases h
  | cons c rest ih =>
    obtain ⟨next, text, more, hStep, hMore, rfl⟩ | ⟨hStep, rfl⟩ | ⟨hStep, rfl⟩ := read_cons_ok h
    · obtain hSolid | ⟨hNil, hNone⟩ := ih hMore
      · exact .inl (hSolid.append [c])
      · -- The character is the last one that was taken.
        exact .inl ⟨[], c, by simp [hNil], hTight.take hStep hNone⟩
    · exact .inl ⟨[], c, rfl, hTight.finish hStep⟩
    · exact .inr ⟨rfl, hTight.leave hStep⟩

/-- From a state where the script may not end, a tight reader takes something, and what it takes
ends in no blank. -/
theorem Reader.solidEnd_of_open {σ : Type} {reader : Reader σ} (hTight : reader.Tight) {state : σ}
    {chars : List Char} {body : Body} (h : reader.read state chars = .ok body)
    (hOpen : reader.atEnd state ≠ none) : SolidEnd body.source :=
  (solidEnd_of_read hTight h).resolve_right fun hNone => hOpen hNone.2

/-- A reader is tight if it only leaves, and the script may only end, in the place behind a
delimiter, and only a delimiter leads there. -/
theorem Reader.tight_of_goesOn {σ : Type} {reader : Reader σ} {delimiter : Char} (inside closed : σ)
    (hDelimiter : delimiter ∈ lexicalSigns) (hInside : inside ≠ closed)
    (hEnd : ∀ state, reader.atEnd state = none ↔ state = closed)
    (hClosed : ∀ c, reader.step closed c = if c = delimiter then .take inside [c] else .leave)
    (hStep : ∀ state c, state ≠ closed →
      (reader.step state c).GoesOn fun next => next = closed → c = delimiter) :
    reader.Tight where
  take := by
    intro state next c text hTake hNone
    have hNext : next = closed := (hEnd next).mp hNone
    by_cases hState : state = closed
    · -- From behind a delimiter a second one leads back inside, where no script may end.
      rw [hState, hClosed] at hTake
      split at hTake
      · cases hTake
        exact absurd hNext hInside
      · cases hTake
    · have hMove := hStep state c hState
      rw [hTake] at hMove
      rw [hMove hNext]
      exact not_isBlank_of_sign hDelimiter
  finish := by
    intro state c hFinish
    by_cases hState : state = closed
    · rw [hState, hClosed] at hFinish
      split at hFinish <;> cases hFinish
    · have hMove := hStep state c hState
      rw [hFinish] at hMove
      exact hMove.elim
  leave := by
    intro state c hLeave
    by_contra hNone
    exact (hStep state c (mt (hEnd state).mpr hNone)).ne_leave hLeave

/-- Quoted text ends behind its delimiter, which is no blank, doubled or not. -/
theorem tight_quotedReader {delimiter : Char} (hDelimiter : delimiter ∈ lexicalSigns)
    (escapes : Bool) (unclosed : Cause) : (quotedReader delimiter escapes unclosed).Tight := by
  refine Reader.tight_of_goesOn .inside .afterDelimiter hDelimiter (by simp)
    (fun state => by cases state <;> simp [quotedReader]) (fun c => rfl) ?_
  intro state c hState
  cases state with
  | inside =>
    simp only [quotedReader]
    split
    · next hSame => exact fun _ => hSame
    · split <;> simp [Move.GoesOn]
  | afterDelimiter => exact absurd rfl hState
  | afterBackslash => simp [quotedReader, Move.GoesOn]

/-- A string with escapes ends behind a quote, even after an escape that covers the one before. -/
theorem tight_escapeReader : escapeReader.Tight :=
  Reader.tight_of_goesOn .inside .afterQuote (by decide) nofun
    (fun state => by cases state <;> simp [escapeReader]) (fun _ => rfl)
    fun _ c hState => EscapeState.goesOn_step hState c

theorem tight_unicodeReader : unicodeReader.Tight :=
  Reader.tight_of_goesOn .inside .afterQuote (by decide) nofun
    (fun state => by cases state <;> simp [unicodeReader]) (fun _ => rfl)
    fun _ c hState => UnicodeState.goesOn_step hState c

/-- A sealed reader is tight if the sign that it ends at is no blank. -/
theorem Reader.Sealed.tight {σ : Type} {reader : Reader σ} (h : reader.Sealed)
    (hFinish : ∀ {state : σ} {c : Char}, reader.step state c = .finish → c ∈ lexicalSigns) :
    reader.Tight where
  take {_ next _ _} _ hNone := absurd hNone (h.atEnd next)
  finish hStep := not_isBlank_of_sign (hFinish hStep)
  leave {state c} hLeave := absurd hLeave (h.ne_leave state c)

/-- Text in three quotes ends at the last of them. -/
theorem tight_tripleReader {delimiter : Char} (hDelimiter : delimiter ∈ lexicalSigns) :
    (tripleReader delimiter).Tight := by
  refine (sealed_tripleReader delimiter).tight fun {count c} hStep => ?_
  simp only [tripleReader] at hStep
  split at hStep
  · next hSame =>
    rw [hSame]
    exact hDelimiter
  · cases hStep

/-- A block comment ends at the slash of its closing sign. -/
theorem tight_blockCommentReader : blockCommentReader.Tight := by
  refine sealed_blockCommentReader.tight fun {state c} hStep => ?_
  simp only [blockCommentReader] at hStep
  split at hStep
  · cases hStep
  · split at hStep
    · next hEnd =>
      rw [hEnd.2]
      decide
    · cases hStep

/-- Text in bare dollars ends at the second dollar of its closing sign. -/
theorem tight_dollarReader : dollarReader.Tight := by
  refine sealed_dollarReader.tight fun {state c} hStep => ?_
  simp only [dollarReader] at hStep
  split at hStep
  · next hSame =>
    rw [hSame]
    decide
  · cases hStep

/-- Text in tagged dollars ends at the dollar that completes its tag. -/
theorem tight_tagReader (tag : List Char) : (tagReader tag).Tight := by
  refine (sealed_tagReader tag).tight fun {state c} hStep => ?_
  rcases state with _ | (_ | ⟨next, left⟩) <;> simp only [tagReader] at hStep
  · cases hStep
  · split at hStep
    · next hSame =>
      rw [hSame]
      decide
    · cases hStep
  · cases hStep

/-! ## Lexemes -/

/-- A fraction is a point and digits. -/
theorem not_isBlank_fractionOf {chars : List Char} {c : Char} (h : c ∈ fractionOf chars) :
    isBlank c = false := by
  unfold fractionOf at h
  split at h
  · rcases List.mem_cons.mp h with rfl | hDigit
    · rfl
    · exact not_isBlank_of_takeWhile (fun _ => not_isDigit) hDigit
  · cases h

/-- An exponent is its letter, a sign and digits. -/
theorem not_isBlank_exponentOf {chars : List Char} {c : Char} (h : c ∈ exponentOf chars) :
    isBlank c = false := by
  cases chars with
  | nil => cases h
  | cons first rest =>
    simp only [exponentOf] at h
    split at h
    · next hExponent =>
      rcases List.mem_cons.mp h with rfl | h
      · rcases hExponent.1 with rfl | rfl <;> rfl
      -- Behind the letter there is a sign, or none, and digits.
      rcases List.mem_append.mp h with hSign | hDigit
      · unfold signOf at hSign
        split at hSign
        · rw [List.mem_singleton.mp hSign]; rfl
        · rw [List.mem_singleton.mp hSign]; rfl
        · cases hSign
      · exact not_isBlank_of_takeWhile (fun _ => not_isDigit) hDigit
    · cases h

/-- A number in any form holds no blank, so that it ends in none. -/
theorem not_isBlank_numberLexeme {chars : List Char} {c : Char}
    (h : c ∈ (numberLexeme chars).source) : isBlank c = false := by
  unfold numberLexeme at h
  dsimp only at h
  split at h
  · simp only [List.mem_cons] at h
    rcases h with rfl | rfl | hDigit
    · rfl
    · rfl
    · exact not_isBlank_of_takeWhile (fun _ => not_isHexDigit) hDigit
  · -- What every number has that is not hexadecimal.
    have hDecimal : ∀ rest, c ∈ chars.takeWhile Char.isDigit ++ fractionOf rest →
        isBlank c = false := by
      intro rest hMem
      rcases List.mem_append.mp hMem with hDigit | hFraction
      · exact not_isBlank_of_takeWhile (fun _ => not_isDigit) hDigit
      · exact not_isBlank_fractionOf hFraction
    split at h
    · exact hDecimal _ h
    · rcases List.mem_append.mp h with h | hSuffix
      · rcases List.mem_append.mp h with h | hExponent
        · exact hDecimal _ h
        · exact not_isBlank_exponentOf hExponent
      · unfold suffixOf at hSuffix
        split at hSuffix
        · rw [List.mem_singleton.mp hSuffix]; rfl
        · cases hSuffix

/-- A literal ends in no blank if the reader of its body is tight and was begun inside the text. -/
theorem solidEnd_quotedLiteral {σ : Type} {reader : Reader σ} (hTight : reader.Tight) {state : σ}
    {kind : LexemeKind} {letters : List Char} {delimiter : Char} {place : List Char → List Char}
    {rest : List Char} {lexeme : Lexeme}
    (h : quotedLiteral kind letters delimiter place (reader.read state rest) = .ok lexeme)
    (hOpen : reader.atEnd state ≠ none) : SolidEnd lexeme.source := by
  obtain ⟨body, hBody, -, hSource⟩ := quotedLiteral_ok h
  rw [hSource, List.append_cons]
  exact (Reader.solidEnd_of_open hTight hBody hOpen).append _

theorem solidEnd_stringLiteral {letters : List Char} {delimiter : Char}
    (hDelimiter : delimiter ∈ lexicalSigns) {escapes : Bool} {rest : List Char} {lexeme : Lexeme}
    (h : stringLiteral letters delimiter escapes rest = .ok lexeme) : SolidEnd lexeme.source :=
  solidEnd_quotedLiteral (tight_quotedReader hDelimiter _ _) h nofun

/-- A raw string ends in no blank: in one pair of quotes, in three, or empty as a pair that nothing
follows. -/
theorem solidEnd_rawString {letter delimiter : Char} (hDelimiter : delimiter ∈ lexicalSigns)
    {rest : List Char} {lexeme : Lexeme} (h : rawString letter delimiter rest = .ok lexeme) :
    SolidEnd lexeme.source := by
  -- The cases are those of the definition: no further delimiter, one or two.
  unfold rawString at h
  split at h
  · exact solidEnd_quotedLiteral (tight_quotedReader hDelimiter _ _) h nofun
  · cases h
    exact ⟨[letter, delimiter], delimiter, rfl, not_isBlank_of_sign hDelimiter⟩
  · dsimp only at h
    split at h
    · next body hBody =>
      cases h
      exact (Reader.solidEnd_of_open (tight_tripleReader hDelimiter) hBody nofun).append _
    · cases h

/-- A string behind letters ends in no blank, whatever the letters are. -/
theorem solidEnd_lettered {c : Char} {rest : List Char} {lexeme : Lexeme}
    (h : LexicalRule.lettered c rest = some (.ok lexeme)) : SolidEnd lexeme.source := by
  obtain ⟨signs, form, tail, hForm, rfl, hResult, -⟩ := LexicalRule.lettered_eq_form h
  cases hForm with
  | string hDelimiter _ =>
    exact solidEnd_stringLiteral (mem_lexicalSigns_of_quote hDelimiter) hResult.symm
  | raw hDelimiter => exact solidEnd_rawString (mem_lexicalSigns_of_quote hDelimiter) hResult.symm
  | escape => exact solidEnd_quotedLiteral tight_escapeReader hResult.symm nofun
  | unicode =>
    unfold unicodeString at hResult
    exact solidEnd_quotedLiteral tight_unicodeReader hResult.symm nofun

/-- A string or a delimited identifier ends in no blank. -/
theorem solidEnd_quoted {c : Char} {rest : List Char} {lexeme : Lexeme}
    (h : LexicalRule.quoted c rest = some (.ok lexeme)) : SolidEnd lexeme.source := by
  obtain ⟨-, hString⟩ | ⟨hOther, hIdentifier⟩ := LexicalRule.quoted_ok h
  · exact solidEnd_stringLiteral (by decide) hString
  · have hSign : c ∈ lexicalSigns := by
      rcases hOther with rfl | rfl <;> decide
    obtain ⟨body, hBody, rfl⟩ := delimitedIdentifier_ok hIdentifier
    exact (Reader.solidEnd_of_open (tight_quotedReader hSign _ _) hBody nofun).append [c]

theorem solidEnd_blockComment {rest : List Char} {lexeme : Lexeme}
    (h : blockComment rest = .ok lexeme) : SolidEnd lexeme.source := by
  obtain ⟨body, hBody, rfl⟩ := blockComment_ok h
  exact (Reader.solidEnd_of_open tight_blockCommentReader hBody nofun).append ['/', '*']

/-- A dollar sign opens a quotation or stands in front of a tag alone, and in neither case a blank
comes last. -/
theorem solidEnd_dollarLexeme {rest : List Char} {lexeme : Lexeme}
    (h : dollarLexeme rest = .ok lexeme) : SolidEnd lexeme.source := by
  obtain ⟨text, body, -, hBody, rfl⟩ | ⟨text, body, -, hBody, rfl⟩ | rfl := dollarLexeme_ok h
  · exact (Reader.solidEnd_of_open tight_dollarReader hBody nofun).append ['$', '$']
  · have hTagged := (Reader.solidEnd_of_open (tight_tagReader _) hBody nofun).append
      ('$' :: (rest.takeWhile isTagChar ++ ['$']))
    simpa [Lexeme.verbatim] using hTagged
  · refine solidEnd_of_all (by simp [Lexeme.verbatim]) fun c hc => ?_
    rcases List.mem_cons.mp hc with rfl | hTag
    · rfl
    · exact not_isBlank_of_takeWhile (fun _ => not_isTagChar) hTag

/-- The signs that open words. -/
def wordSigns : List (List Char) := [['@'], ['@', '@'], ['#']]

/-- A rule whose lexemes hold no blank makes lexemes that end in none. -/
theorem solidEnd_of_sound {rule : LexicalRule} (hSound : rule.Sound) {c : Char} {rest : List Char}
    {lexeme : Lexeme} (h : rule c rest = some (.ok lexeme))
    (hAll : ∀ d ∈ lexeme.source, isBlank d = false) : SolidEnd lexeme.source :=
  solidEnd_of_all (hSound h).ne_nil hAll

theorem solidEnd_number {c : Char} {rest : List Char} {lexeme : Lexeme}
    (h : LexicalRule.number c rest = some (.ok lexeme)) : SolidEnd lexeme.source := by
  refine solidEnd_of_sound LexicalRule.sound_number h fun d hd => ?_
  unfold LexicalRule.number at h
  split at h
  · cases h
    exact not_isBlank_numberLexeme hd
  · cases h

/-- No operator has a blank in its spelling. -/
theorem solidEnd_symbol {c : Char} {rest : List Char} {lexeme : Lexeme}
    (h : LexicalRule.symbol c rest = some (.ok lexeme)) : SolidEnd lexeme.source := by
  refine solidEnd_of_sound LexicalRule.sound_symbol h fun d hd => ?_
  unfold LexicalRule.symbol symbolLexeme at h
  rw [Option.map_map, Option.map_eq_some_iff] at h
  obtain ⟨spelling, hFind, hLexeme⟩ := h
  cases hLexeme
  exact not_isBlank (not_isStop_of_spelling (List.mem_of_find?_eq_some hFind) hd)

/-- A placeholder is a mark and digits. -/
theorem solidEnd_placeholder {c : Char} {rest : List Char} {lexeme : Lexeme}
    (h : LexicalRule.placeholder c rest = some (.ok lexeme)) : SolidEnd lexeme.source := by
  refine solidEnd_of_sound LexicalRule.sound_placeholder h fun d hd => ?_
  unfold LexicalRule.placeholder at h
  split at h
  · cases h
    rcases List.mem_cons.mp hd with rfl | hNumeric
    · rfl
    · exact not_isBlank_of_takeWhile (fun _ => not_isNumeric) hNumeric
  · cases h

/-- A word starts with the character that it is read for, so that one must be no blank. -/
theorem solidEnd_word {c : Char} {rest : List Char} {lexeme : Lexeme}
    (h : LexicalRule.word c rest = some (.ok lexeme)) (hBlank : isBlank c = false) :
    SolidEnd lexeme.source := by
  refine solidEnd_of_sound LexicalRule.sound_word h fun d hd => ?_
  unfold LexicalRule.word at h
  split at h
  · cases h
    rcases List.mem_cons.mp hd with rfl | hWord
    · exact hBlank
    · exact not_isBlank_of_takeWhile (fun _ => not_isWordChar) hWord
  · cases h

/-- A lexeme that does not start with a blank ends in none either, unless it is a line comment or
is opened by the signs of a word. -/
theorem readLexeme_solidEnd {c : Char} {rest : List Char} {lexeme : Lexeme}
    (h : readLexeme c rest = .ok lexeme) (hBlank : isBlank c = false) :
    SolidEnd lexeme.source ∨
      (∃ tail, c = '-' ∧ rest = '-' :: tail ∧ lexeme = lineComment tail) ∨
      ∃ signs ∈ wordSigns, ∃ tail, c :: rest = signs ++ tail ∧ lexeme = signLexeme signs tail := by
  have hSingle : SolidEnd [c] := ⟨[], c, rfl, hBlank⟩
  obtain ⟨rule, hMem, hRule⟩ | ⟨-, rfl⟩ := readLexeme_ok h
  · -- One case for each rule, in the order in which they are asked.
    simp only [LexicalRule.all, List.mem_cons, List.not_mem_nil, or_false] at hMem
    rcases hMem with rfl | rfl | rfl | rfl | rfl | rfl | rfl | rfl | rfl | rfl | rfl
    · rw [LexicalRule.speaksOf_blank.opens hRule] at hBlank
      cases hBlank
    · exact .inl (solidEnd_lettered hRule)
    · exact .inl (solidEnd_quoted hRule)
    · exact .inl (solidEnd_number hRule)
    · obtain ⟨tail, hSign, hRest, hLine⟩ | ⟨tail, -, -, hBlock⟩ := LexicalRule.comment_ok hRule
      · exact .inr (.inl ⟨tail, hSign, hRest, hLine⟩)
      · exact .inl (solidEnd_blockComment hBlock)
    · unfold LexicalRule.terminator at hRule
      split at hRule
      · cases hRule
        exact .inl hSingle
      · cases hRule
    · exact .inl (solidEnd_symbol hRule)
    · unfold LexicalRule.sign at hRule
      split at hRule
      · cases hRule
        exact .inr (.inr ⟨['@', '@'], by decide, _, rfl, rfl⟩)
      · cases hRule
        exact .inr (.inr ⟨['@'], by decide, _, rfl, rfl⟩)
      · cases hRule
        exact .inr (.inr ⟨['#'], by decide, _, rfl, rfl⟩)
      · cases hRule
    · exact .inl (solidEnd_placeholder hRule)
    · exact .inl (solidEnd_word hRule hBlank)
    · unfold LexicalRule.dollar at hRule
      split at hRule
      · exact .inl (solidEnd_dollarLexeme (Option.some.inj hRule))
      · cases hRule
  · exact .inl hSingle

/-! ## Trimmed lexemes -/

/-- The signs that open a word are some, and none of them is a blank. -/
theorem wordSigns_solid : ∀ signs ∈ wordSigns, signs ≠ [] ∧ ∀ c ∈ signs, isBlank c = false := by
  have hAll : (wordSigns.all fun signs =>
      !signs.isEmpty && signs.all fun c => !isBlank c) = true := by decide
  intro signs hSigns
  simpa using List.all_eq_true.mp hAll signs hSigns

/-- A word that signs open ends in no blank, or it is its signs and one more character. -/
theorem signLexeme_source (signs tail : List Char) (hSigns : signs ∈ wordSigns) :
    SolidEnd (signLexeme signs tail).source ∨
      ∃ c, (signLexeme signs tail).source = signs ++ [c] := by
  obtain ⟨hNil, hSolid⟩ := wordSigns_solid signs hSigns
  cases tail with
  | nil => exact .inl (solidEnd_of_all hNil hSolid)
  | cons c rest =>
    unfold signLexeme
    dsimp only
    split
    · exact .inl (solidEnd_of_all hNil hSolid)
    · -- The first character is taken whatever it is, and behind it those of a word.
      cases hWord : rest.takeWhile isWordChar with
      | nil => exact .inr ⟨c, by simp [wordLexeme, Lexeme.verbatim, hWord]⟩
      | cons d word =>
        refine .inl (SolidEnd.append (solidEnd_of_all (by simp [hWord]) fun d hd => ?_) _)
        exact not_isBlank_of_takeWhile (fun _ => not_isWordChar) hd

/-- The signs that open a word are a loose opening by themselves. -/
theorem loose_of_wordSigns {signs : List Char} (h : signs ∈ wordSigns) : Loose signs := by
  simp only [wordSigns, List.mem_cons, List.not_mem_nil, or_false] at h
  rcases h with rfl | rfl | rfl
  · exact .inr (.inl rfl)
  · exact .inr (.inr (.inl rfl))
  · exact .inr (.inr (.inr (.inl rfl)))

/-- A line comment without the blanks at its end is one without its newline. -/
theorem loose_of_lineComment {tail front trail : List Char}
    (hSource : (lineComment tail).source = front ++ trail) (hNil : trail ≠ [])
    (hTrail : ∀ d ∈ trail, isBlank d = true) : Loose front := by
  simp only [lineComment, Lexeme.verbatim] at hSource
  -- Both signs stand in front of the trail, as they are no blanks.
  have hStops : Stops trail := by simpa using stops_of_blanks hTrail stops_nil
  obtain ⟨front, rfl, hRest⟩ := append_of_cons_stops hSource.symm hStops (by decide)
  obtain ⟨line, rfl, hLine⟩ := append_of_cons_stops hRest.symm hStops (by decide)
  -- The newline is the last character, and that one is in the trail.
  have hPrefix : line <+: tail.takeWhile (· ≠ '\n') := by
    refine List.prefix_of_prefix_length_le ⟨trail, hLine.symm⟩ (List.prefix_append _ _) ?_
    have hLength := congrArg List.length hLine
    have hTake := List.length_take_le 1 (tail.drop (tail.takeWhile (· ≠ '\n')).length)
    have hTrailLength := List.length_pos_iff.mpr hNil
    simp only [List.length_append] at hLength
    omega
  refine .inr (.inr (.inr (.inr ⟨line, rfl, fun hMem => ?_⟩)))
  simpa using List.mem_takeWhile_imp (hPrefix.subset hMem)

/-- What is left of a lexeme without the blanks at its end is loose. -/
theorem loose_of_trail {c : Char} {rest front trail : List Char} {lexeme : Lexeme}
    (h : readLexeme c rest = .ok lexeme) (hBlank : isBlank c = false)
    (hSource : lexeme.source = front ++ trail) (hNil : trail ≠ [])
    (hTrail : ∀ d ∈ trail, isBlank d = true) : Loose front := by
  have hNot : ¬ SolidEnd lexeme.source := by
    intro hSolid
    rw [hSource] at hSolid
    exact hNil (hSolid.trail_eq_nil hTrail)
  obtain hSolid | ⟨tail, -, -, rfl⟩ | ⟨signs, hSigns, tail, -, rfl⟩ := readLexeme_solidEnd h hBlank
  · exact absurd hSolid hNot
  · exact loose_of_lineComment hSource hNil hTrail
  · obtain ⟨d, hWord⟩ := (signLexeme_source signs tail hSigns).resolve_left hNot
    -- No sign is a blank, so all signs stand in front of the trail.
    suffices hFront : front = signs by
      rw [hFront]
      exact loose_of_wordSigns hSigns
    rw [hWord, List.append_eq_append_iff] at hSource
    obtain ⟨others, rfl, hLast⟩ | ⟨others, hOthers, rfl⟩ := hSource
    · rw [List.singleton_eq_append_iff] at hLast
      obtain ⟨rfl, -⟩ | ⟨-, hTrailNil⟩ := hLast
      · exact List.append_nil signs
      · exact absurd hTrailNil hNil
    · cases others with
      | nil => rw [hOthers, List.append_nil]
      | cons e others =>
        have hSolid := (wordSigns_solid signs hSigns).2 e (by simp [hOthers])
        rw [hTrail e (by simp)] at hSolid
        cases hSolid

/-! ## Loose openings

What a loose opening is read as before a stop, and that it always takes up the whole opening. -/

/-- A loose opening that is a blank is the return alone. -/
theorem eq_nil_of_loose {c : Char} {front : List Char} (h : Loose (c :: front))
    (hBlank : isBlank c = true) : front = [] := by
  obtain hReturn | hAt | hAts | hNumber | ⟨line, hLine, -⟩ := h
  · exact (List.cons.inj hReturn).2
  · exact (List.cons.inj hAt).2
  · obtain ⟨rfl, -⟩ := List.cons.inj hAts
    exact absurd hBlank (by decide)
  · exact (List.cons.inj hNumber).2
  · obtain ⟨rfl, -⟩ := List.cons.inj hLine
    exact absurd hBlank (by decide)

theorem readLexeme_hyphens (rest : List Char) :
    readLexeme '-' ('-' :: rest) = .ok (lineComment rest) := rfl

/-- A sign opens a word where it is no part of an operator. -/
theorem readLexeme_of_sign {c : Char} (hSign : c = '@' ∨ c = '#') {rest : List Char}
    {result : Except Fault Lexeme} (hSymbol : symbolLexeme (c :: rest) = none)
    (hResult : LexicalRule.sign c rest = some result) : readLexeme c rest = result := by
  obtain ⟨hBlank, hLettered, hQuoted, hNumber, hComment, hTerminator⟩ :
      LexicalRule.blank c rest = none ∧ LexicalRule.lettered c rest = none ∧
        LexicalRule.quoted c rest = none ∧ LexicalRule.number c rest = none ∧
        LexicalRule.comment c rest = none ∧ LexicalRule.terminator c rest = none := by
    rcases hSign with rfl | rfl <;> exact ⟨rfl, rfl, rfl, rfl, rfl, rfl⟩
  have hNone : LexicalRule.symbol c rest = none := by
    simp [LexicalRule.symbol, hSymbol]
  simp [readLexeme, LexicalRule.all, hBlank, hLettered, hQuoted, hNumber, hComment, hTerminator,
    hNone, hResult]

/-- Before a stop the signs of a word are read as such, and not as the start of an operator. -/
theorem readLexeme_wordSigns {c : Char} {front after : List Char} (hSigns : c :: front ∈ wordSigns)
    (hAfter : Stops after) :
    readLexeme c (front ++ after) = .ok (signLexeme (c :: front) after) := by
  simp only [wordSigns, List.mem_cons, List.cons.injEq, List.not_mem_nil, or_false] at hSigns
  obtain ⟨rfl, rfl⟩ | ⟨rfl, rfl⟩ | ⟨rfl, rfl⟩ := hSigns
  · have hSingle : after.head? ≠ some '@' := hAfter.head?_ne (by decide)
    exact readLexeme_of_sign (.inl rfl) (symbolLexeme_append_stops hAfter ['@'])
      (LexicalRule.sign_of_single hSingle)
  · rfl
  · exact readLexeme_of_sign (.inr rfl) (symbolLexeme_append_stops hAfter ['#']) rfl

/-- A loose opening is a line comment or a word of signs. -/
theorem readLexeme_of_loose {c : Char} {front : List Char} (hBlank : isBlank c = false)
    (hLoose : Loose (c :: front)) :
    (∃ line, c :: front = '-' :: '-' :: line ∧ '\n' ∉ line ∧
      ∀ after, readLexeme c (front ++ after) = .ok (lineComment (line ++ after))) ∨
    c :: front ∈ wordSigns ∧ ∀ after, Stops after →
      readLexeme c (front ++ after) = .ok (signLexeme (c :: front) after) := by
  -- A return is blank. What is left are the signs of words and the line comment.
  obtain hReturn | hAt | hAts | hNumber | ⟨line, hLine, hNewline⟩ := hLoose
  · obtain ⟨rfl, -⟩ := List.cons.inj hReturn
    cases hBlank
  · have hSigns : c :: front ∈ wordSigns := by simp [wordSigns, hAt]
    exact .inr ⟨hSigns, fun _ => readLexeme_wordSigns hSigns⟩
  · have hSigns : c :: front ∈ wordSigns := by simp [wordSigns, hAts]
    exact .inr ⟨hSigns, fun _ => readLexeme_wordSigns hSigns⟩
  · have hSigns : c :: front ∈ wordSigns := by simp [wordSigns, hNumber]
    exact .inr ⟨hSigns, fun _ => readLexeme_wordSigns hSigns⟩
  · obtain ⟨rfl, rfl⟩ := List.cons.inj hLine
    exact .inl ⟨line, rfl, hNewline, fun after => readLexeme_hyphens (line ++ after)⟩

/-- What is read of a loose opening before a stop holds all of it. -/
theorem loose_source_length {c : Char} {front after : List Char} (hBlank : isBlank c = false)
    (hLoose : Loose (c :: front)) (hAfter : Stops after) {lexeme : Lexeme}
    (h : readLexeme c (front ++ after) = .ok lexeme) :
    front.length + 1 ≤ lexeme.source.length := by
  obtain ⟨line, hLine, hNewline, hRead⟩ | ⟨hSigns, hRead⟩ := readLexeme_of_loose hBlank hLoose
  · rw [hRead after] at h
    cases h
    have hLength := congrArg List.length hLine
    simp only [List.length_cons] at hLength
    -- At the end it is read as it stands, and otherwise it takes up the stop as well.
    cases after with
    | nil =>
      rw [List.append_nil, LexicalRule.lineComment_of_end hNewline]
      simp only [Lexeme.verbatim, List.length_cons]
      omega
    | cons d rest =>
      have hLonger := LexicalRule.lineComment_source_length hNewline (List.cons_ne_nil d rest)
      omega
  · rw [hRead after hAfter] at h
    cases h
    unfold signLexeme
    split
    · exact Nat.le_refl _
    · split
      · exact Nat.le_refl _
      · simp [wordLexeme, Lexeme.verbatim]

/-- The lexeme is an operator, or a word that a sign opens. -/
def Lexeme.OfSigns (lexeme : Lexeme) : Prop :=
  lexeme.kind = .operator ∨
    lexeme.kind = .word ∧ ∃ c rest, lexeme.text = c :: rest ∧ (c = '@' ∨ c = '#')

/-- Signs make up a word together with what follows them, or an operator alone. -/
theorem ofSigns_signLexeme {signs : List Char} (hSigns : signs ∈ wordSigns) (tail : List Char) :
    (signLexeme signs tail).OfSigns := by
  have hAll : ∀ signs ∈ wordSigns, ∃ c rest, signs = c :: rest ∧ (c = '@' ∨ c = '#') := by
    simp [wordSigns]
  obtain ⟨c, rest, rfl, hSign⟩ := hAll signs hSigns
  unfold signLexeme
  split
  · exact .inl rfl
  · split
    · exact .inl rfl
    · exact .inr ⟨rfl, c, _, rfl, hSign⟩

/-- The characters are what a text may be joined to what follows by: nothing at the end, or a
newline before a stop. -/
def Joint (joint rest : List Char) : Prop :=
  joint = [] ∧ rest = [] ∨ joint = ['\n'] ∧ Stops rest

theorem Joint.eq {joint rest : List Char} (h : Joint joint rest) : joint = [] ∨ joint = ['\n'] :=
  h.imp And.left And.left

/-- A text that is joined to the rest of a script stands before a stop. -/
theorem Joint.stops {joint rest : List Char} (h : Joint joint rest) : Stops (joint ++ rest) := by
  obtain ⟨rfl, rfl⟩ | ⟨rfl, -⟩ := h
  · exact stops_nil
  · exact stops_cons.mpr rfl

/-- Before a joint a loose opening is read once more, together with the joint, and what it is read
as does not change its sort. -/
theorem reread_loose {c : Char} {front : List Char} (hBlank : isBlank c = false)
    (hLoose : Loose (c :: front)) {after : List Char} (hAfter : Stops after) {lexeme : Lexeme}
    (h : readLexeme c (front ++ after) = .ok lexeme) {joint rest : List Char}
    (hJoint : Joint joint rest) :
    ∃ again, readLexeme c (front ++ (joint ++ rest)) = .ok again ∧
      again.source = c :: (front ++ joint) ∧
      (lexeme.kind = .comment ∧ again.kind = .comment ∨ lexeme.OfSigns ∧ again.OfSigns) := by
  obtain ⟨line, hLine, hNewline, hRead⟩ | ⟨hSigns, hRead⟩ := readLexeme_of_loose hBlank hLoose
  · rw [hRead after] at h
    cases h
    refine ⟨_, hRead _, ?_, .inl ⟨rfl, rfl⟩⟩
    rw [← List.cons_append, hLine]
    obtain ⟨rfl, rfl⟩ | ⟨rfl, -⟩ := hJoint
    · rw [List.append_nil, List.append_nil, LexicalRule.lineComment_of_end hNewline]
      simp [Lexeme.verbatim]
    · rw [List.singleton_append, LexicalRule.lineComment_of_newline hNewline]
      rfl
  · rw [hRead after hAfter] at h
    cases h
    refine ⟨_, hRead _ hJoint.stops, ?_,
      .inr ⟨ofSigns_signLexeme hSigns _, ofSigns_signLexeme hSigns _⟩⟩
    rw [← List.cons_append]
    obtain ⟨rfl, rfl⟩ | ⟨rfl, hRest⟩ := hJoint
    · simp [signLexeme, Lexeme.verbatim]
    · -- The word takes up the newline and ends there.
      have hWord : rest.takeWhile isWordChar = [] := by
        simpa using takeWhile_append_stops (fun _ => not_isWordChar) [] hRest
      simp [signLexeme, wordLexeme, Lexeme.verbatim, hWord]

end SqlScript
