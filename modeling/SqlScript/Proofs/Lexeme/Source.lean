import Mathlib.Data.List.TakeWhile
import SqlScript.Lexeme.Lexed

/-!
# Lexemes are pieces of the script

A lexeme keeps the characters that it was read from. This module shows that these characters are
what the script goes on with, so that cutting a script into lexemes neither loses a character nor
reads one twice, whatever the forms of the lexemes are.

Each lexical rule is shown to read a nonempty prefix (`LexicalRule.Sound`), and the rules together
inherit that. The many literals with an opening letter have a few forms only (`LetteredForm`).

`Lexes` is the judgement that some lexemes are what a script starts with, in view of what follows
them; it is what later arguments about parts of a script work with.

## Results

* `readLexeme_readFrom` — a lexeme is read from a nonempty prefix of the rest of the script.
* `lexes_of_lex`        — the lexemes of a script without fault make up the script.
* `lex_of_lexes`        — after some lexemes, cutting goes on as if they were not there.
-/

namespace SqlScript

/-! ## Prefixes -/

/-- A prefix goes on with a prefix of what follows it. -/
theorem prefix_append_of_drop {first second chars : List Char} (hFirst : first <+: chars)
    (hSecond : second <+: chars.drop first.length) : first ++ second <+: chars := by
  obtain ⟨rest, rfl⟩ := hFirst
  rw [List.drop_left] at hSecond
  exact (List.prefix_append_right_inj first).mpr hSecond

/-! ## Readers -/

/-- A reader that succeeds on a character has taken it and gone on, or has stopped at it. -/
theorem Reader.read_cons_ok {σ : Type} {reader : Reader σ} {state : σ} {c : Char}
    {rest : List Char} {body : Body} (h : reader.read state (c :: rest) = .ok body) :
    (∃ next text more, reader.step state c = .take next text ∧ reader.read next rest = .ok more ∧
        body = ⟨text ++ more.content, c :: more.source⟩) ∨
      (reader.step state c = .finish ∧ body = ⟨[], [c]⟩) ∨
      (reader.step state c = .leave ∧ body = ⟨[], []⟩) := by
  rw [read_cons] at h
  cases hStep : reader.step state c with
  | take next text =>
    rw [hStep] at h
    simp only at h
    cases hRead : reader.read next rest with
    | ok more =>
      rw [hRead] at h
      cases h
      exact .inl ⟨next, text, more, rfl, hRead, rfl⟩
    | error fault =>
      rw [hRead] at h
      cases h
  | finish =>
    rw [hStep] at h
    cases h
    exact .inr (.inl ⟨rfl, rfl⟩)
  | leave =>
    rw [hStep] at h
    cases h
    exact .inr (.inr ⟨rfl, rfl⟩)
  | spoil cause =>
    rw [hStep] at h
    cases h

/-- What a reader takes is a prefix of what it reads. -/
theorem Reader.isPrefix_source {σ : Type} {reader : Reader σ} {state : σ} {chars : List Char}
    {body : Body} (h : reader.read state chars = .ok body) : body.source <+: chars := by
  induction chars generalizing state body with
  | nil =>
    rw [read_nil] at h
    split at h
    · cases h
      exact List.nil_prefix
    · cases h
  | cons c rest ih =>
    obtain ⟨next, text, more, -, hMore, rfl⟩ | ⟨-, rfl⟩ | ⟨-, rfl⟩ := read_cons_ok h
    · exact List.cons_prefix_cons.mpr ⟨rfl, ih hMore⟩
    · exact List.cons_prefix_cons.mpr ⟨rfl, List.nil_prefix⟩
    · exact List.nil_prefix

/-! ## Numbers -/

/-- The parts of a number are looked for at the front of what is left of it. -/
theorem isPrefix_fractionOf (chars : List Char) : fractionOf chars <+: chars := by
  unfold fractionOf
  split
  · exact List.cons_prefix_cons.mpr ⟨rfl, List.takeWhile_prefix _⟩
  · exact List.nil_prefix

theorem isPrefix_signOf (chars : List Char) : signOf chars <+: chars := by
  unfold signOf
  split <;> simp

/-- An exponent is a letter, a sign and digits, each behind the other. -/
theorem isPrefix_exponentOf (chars : List Char) : exponentOf chars <+: chars := by
  cases chars with
  | nil => exact List.nil_prefix
  | cons c rest =>
    simp only [exponentOf]
    split
    · refine List.cons_prefix_cons.mpr ⟨rfl, ?_⟩
      exact prefix_append_of_drop (isPrefix_signOf rest) (List.takeWhile_prefix _)
    · exact List.nil_prefix

theorem isPrefix_suffixOf (chars : List Char) : suffixOf chars <+: chars := by
  unfold suffixOf
  split <;> simp

/-- A hexadecimal number, a period and a decimal number are each read from a prefix. -/
theorem isPrefix_numberLexeme (chars : List Char) :
    (numberLexeme chars).source <+: chars := by
  have hWhole : chars.takeWhile Char.isDigit <+: chars := List.takeWhile_prefix _
  have hDecimal := prefix_append_of_drop hWhole (isPrefix_fractionOf _)
  unfold numberLexeme
  simp only
  split
  · next h =>
    obtain ⟨hZero, hX⟩ := h
    rw [hZero] at hX hWhole
    obtain ⟨rest, rfl⟩ := hWhole
    have hRest : rest.head? = some 'x' := hX
    obtain ⟨rest, rfl⟩ := List.head?_eq_some_iff.mp hRest
    rw [hZero]
    simpa using List.takeWhile_prefix _
  · split
    · exact hDecimal
    · simp only [Lexeme.verbatim, List.append_assoc] at hDecimal ⊢
      rw [← List.append_assoc]
      exact prefix_append_of_drop hDecimal
        (prefix_append_of_drop (isPrefix_exponentOf _) (isPrefix_suffixOf _))

/-! ## Literals -/

/-- A literal is read from its letters, its delimiter and what its reader took. -/
theorem quotedLiteral_ok {kind : LexemeKind} {letters : List Char} {delimiter : Char}
    {place : List Char → List Char} {result : Except Fault Body} {lexeme : Lexeme}
    (h : quotedLiteral kind letters delimiter place result = .ok lexeme) :
    ∃ body, result = .ok body ∧ lexeme.kind = kind ∧
      lexeme.source = letters ++ delimiter :: body.source := by
  cases result with
  | ok body =>
    cases h
    exact ⟨body, rfl, rfl, rfl⟩
  | error fault => cases h

/-- The source of a literal is a prefix of its opening and the characters after that. -/
theorem isPrefix_quotedLiteral {σ : Type} {reader : Reader σ} {state : σ} {kind : LexemeKind}
    {letters : List Char} {delimiter : Char} {place : List Char → List Char} {rest : List Char}
    {lexeme : Lexeme}
    (h : quotedLiteral kind letters delimiter place (reader.read state rest) = .ok lexeme) :
    lexeme.source <+: letters ++ delimiter :: rest := by
  obtain ⟨body, hBody, -, hSource⟩ := quotedLiteral_ok h
  rw [hSource]
  exact (List.prefix_append_right_inj _).mpr
    (List.cons_prefix_cons.mpr ⟨rfl, Reader.isPrefix_source hBody⟩)

/-- A raw string is read from its letter and one delimiter, two or three. How many there are is seen
from the two characters behind the first one. -/
theorem isPrefix_rawString {letter delimiter : Char} {rest : List Char} {lexeme : Lexeme}
    (h : rawString letter delimiter rest = .ok lexeme) :
    lexeme.source <+: letter :: delimiter :: rest := by
  have hTake : (rest.take 2).takeWhile (· = delimiter) <+: rest :=
    (List.takeWhile_prefix _).trans (List.take_prefix 2 rest)
  have hSame : ∀ c ∈ (rest.take 2).takeWhile (· = delimiter), c = delimiter := by
    intro c hc
    simpa using List.mem_takeWhile_imp hc
  unfold rawString at h
  split at h
  · exact isPrefix_quotedLiteral h
  · next c hOne =>
    cases h
    rw [hOne] at hTake hSame
    rw [hSame c (by simp)] at hTake
    simpa using hTake
  · next hNone hOne =>
    -- Neither none nor one of the next two characters is a delimiter, so both are.
    obtain ⟨rest, rfl⟩ : ∃ tail, rest = delimiter :: delimiter :: tail := by
      match rest with
      | [] => simp at hNone
      | [c] => by_cases hc : c = delimiter <;> simp [hc] at hNone hOne
      | c :: d :: tail =>
        by_cases hc : c = delimiter <;> by_cases hd : d = delimiter <;>
          simp_all
    simp only [List.drop_succ_cons, List.drop_zero] at h
    split at h
    · next body hBody =>
      cases h
      simpa using Reader.isPrefix_source hBody
    · cases h

/-- A delimited identifier is shown without its delimiters, but its source goes from the first one
to the end of what its reader took. -/
theorem delimitedIdentifier_ok {delimiter : Char} {rest : List Char} {lexeme : Lexeme}
    (h : delimitedIdentifier delimiter rest = .ok lexeme) :
    ∃ body, (quotedReader delimiter false (.openIdentifier delimiter)).read .inside rest =
        .ok body ∧
      lexeme = ⟨.delimited, body.content, delimiter :: body.source⟩ := by
  unfold delimitedIdentifier at h
  split at h
  · next body hBody =>
    cases h
    exact ⟨body, hBody, rfl⟩
  · cases h

/-- A block comment is shown as it is written. -/
theorem blockComment_ok {rest : List Char} {lexeme : Lexeme} (h : blockComment rest = .ok lexeme) :
    ∃ body, blockCommentReader.read ⟨' ', 1⟩ rest = .ok body ∧
      lexeme = .verbatim .comment ('/' :: '*' :: body.source) := by
  unfold blockComment at h
  split at h
  · next body hBody =>
    cases h
    exact ⟨body, hBody, rfl⟩
  · cases h

/-- A quotation between dollar signs is shown as it is written, from its opening to the end of what
its reader took. -/
theorem dollarLiteral_ok {opening : List Char} {result : Except Fault Body} {lexeme : Lexeme}
    (h : dollarLiteral opening result = .ok lexeme) :
    ∃ body, result = .ok body ∧ lexeme = .verbatim .literal (opening ++ body.source) := by
  cases result with
  | ok body =>
    cases h
    exact ⟨body, rfl, rfl⟩
  | error fault => cases h

/-- What a dollar sign opens is a quotation without a tag, one with a tag, or the dollar sign and a
tag alone. -/
theorem dollarLexeme_ok {rest : List Char} {lexeme : Lexeme} (h : dollarLexeme rest = .ok lexeme) :
    (∃ text body, rest = '$' :: text ∧ dollarReader.read false text = .ok body ∧
        lexeme = .verbatim .literal ('$' :: '$' :: body.source)) ∨
      (∃ text body, rest.drop (rest.takeWhile isTagChar).length = '$' :: text ∧
        (tagReader (rest.takeWhile isTagChar)).read .inside text = .ok body ∧
        lexeme =
          .verbatim .literal ('$' :: (rest.takeWhile isTagChar ++ '$' :: body.source))) ∨
      lexeme = .verbatim .operator ('$' :: rest.takeWhile isTagChar) := by
  unfold dollarLexeme at h
  split at h
  · next text =>
    obtain ⟨body, hBody, rfl⟩ := dollarLiteral_ok h
    exact .inl ⟨text, body, rfl, hBody, rfl⟩
  · dsimp only at h
    split at h
    · next text hText =>
      obtain ⟨body, hBody, rfl⟩ := dollarLiteral_ok h
      exact .inr (.inl ⟨text, body, hText, hBody, by simp⟩)
    · cases h
      exact .inr (.inr rfl)

/-! ## Literals with an opening letter -/

/-- The forms that a letter opens together with the signs behind it. -/
inductive LetteredForm (letter : Char) : List Char → (List Char → Except Fault Lexeme) → Prop
  | string {delimiter : Char} (hDelimiter : delimiter ∈ [singleQuote, doubleQuote])
      (escapes : Bool) :
      LetteredForm letter [delimiter] (stringLiteral [letter] delimiter escapes)
  | raw {delimiter : Char} (hDelimiter : delimiter ∈ [singleQuote, doubleQuote]) :
      LetteredForm letter [delimiter] (rawString letter delimiter)
  | escape : LetteredForm letter [singleQuote] (escapeString letter)
  | unicode : LetteredForm letter ['&', singleQuote] (unicodeString letter)

/-- What a letter opens is one of these forms. -/
theorem LexicalRule.lettered_eq_form {c : Char} {rest : List Char}
    {result : Except Fault Lexeme} (h : lettered c rest = some result) :
    ∃ signs form tail, LetteredForm c signs form ∧ rest = signs ++ tail ∧ result = form tail ∧
      ∀ tail, lettered c (signs ++ tail) = some (form tail) := by
  have hSingle : singleQuote ∈ [singleQuote, doubleQuote] := by simp
  have hDouble : doubleQuote ∈ [singleQuote, doubleQuote] := by simp
  unfold lettered at h
  split at h
  -- One case for each pair of a letter and its signs.
  · next hUpper =>
    exact ⟨_, _, _, .string hSingle false, rfl, (Option.some.inj h).symm,
      fun _ => by simp [lettered, hUpper, singleQuote]⟩
  · next hUpper =>
    exact ⟨_, _, _, .string hDouble false, rfl, (Option.some.inj h).symm,
      fun _ => by simp [lettered, hUpper, doubleQuote]⟩
  · next hUpper =>
    exact ⟨_, _, _, .raw hSingle, rfl, (Option.some.inj h).symm,
      fun _ => by simp [lettered, hUpper, singleQuote]⟩
  · next hUpper =>
    exact ⟨_, _, _, .raw hDouble, rfl, (Option.some.inj h).symm,
      fun _ => by simp [lettered, hUpper, doubleQuote]⟩
  · next hUpper =>
    exact ⟨_, _, _, .string hSingle true, rfl, (Option.some.inj h).symm,
      fun _ => by simp [lettered, hUpper, singleQuote]⟩
  · next hUpper =>
    exact ⟨_, _, _, .string hSingle true, rfl, (Option.some.inj h).symm,
      fun _ => by simp [lettered, hUpper, singleQuote]⟩
  · next hUpper =>
    exact ⟨_, _, _, .escape, rfl, (Option.some.inj h).symm,
      fun _ => by simp [lettered, hUpper, singleQuote]⟩
  · next hUpper =>
    exact ⟨_, _, _, .unicode, rfl, (Option.some.inj h).symm,
      fun _ => by simp [lettered, hUpper, singleQuote]⟩
  · cases h

/-- A literal with an opening letter is read from the letter and the signs behind it. -/
theorem LetteredForm.exists_source {letter : Char} {signs : List Char}
    {form : List Char → Except Fault Lexeme} (hForm : LetteredForm letter signs form)
    {tail : List Char} {lexeme : Lexeme} (h : form tail = .ok lexeme) :
    (∃ more, lexeme.source = letter :: (signs ++ more)) ∧
      lexeme.kind ∈ [.literal, .operator] := by
  have hQuoted : ∀ {kind letters delimiter place result},
      quotedLiteral kind letters delimiter place result = .ok lexeme →
      (∃ more, lexeme.source = letters ++ delimiter :: more) ∧ lexeme.kind = kind := by
    intro kind letters delimiter place result hLiteral
    obtain ⟨body, -, hKind, hSource⟩ := quotedLiteral_ok hLiteral
    exact ⟨⟨body.source, hSource⟩, hKind⟩
  cases hForm with
  | string _ _ | escape =>
    obtain ⟨hSource, hKind⟩ := hQuoted h
    exact ⟨hSource, by rw [hKind]; decide⟩
  | unicode =>
    unfold unicodeString at h
    obtain ⟨hSource, hKind⟩ := hQuoted h
    exact ⟨hSource, by rw [hKind]; decide⟩
  | raw _ =>
    -- The signs are in front of the text, be it empty, between one delimiter or between three.
    unfold rawString at h
    split at h
    · obtain ⟨hSource, hKind⟩ := hQuoted h
      exact ⟨hSource, by rw [hKind]; decide⟩
    · cases h
      exact ⟨⟨_, rfl⟩, by simp⟩
    · dsimp only at h
      split at h
      · cases h
        exact ⟨⟨_, rfl⟩, by simp⟩
      · cases h

/-! ## Words -/

/-- A word is its opening and the run of word characters behind it. -/
theorem isPrefix_wordLexeme (opening rest : List Char) :
    (wordLexeme opening rest).source <+: opening ++ rest :=
  (List.prefix_append_right_inj opening).mpr (List.takeWhile_prefix _)

/-- Signs that start a word take in one more character, whatever it is but a space. -/
theorem isPrefix_signLexeme (signs rest : List Char) :
    (signLexeme signs rest).source <+: signs ++ rest := by
  cases rest with
  | nil => simp [signLexeme, Lexeme.verbatim]
  | cons c rest =>
    simp only [signLexeme]
    split
    · exact List.prefix_append signs _
    · simpa using isPrefix_wordLexeme (signs ++ [c]) rest

/-! ## Single rules

`Lexeme.ReadFrom` collects what holds of a lexeme whatever rule has made it. -/

/-- The lexeme is read from the front of the characters, and a terminator from a semicolon. -/
structure Lexeme.ReadFrom (lexeme : Lexeme) (chars : List Char) : Prop where
  ne_nil : lexeme.source ≠ []
  isPrefix : lexeme.source <+: chars
  terminator : lexeme.kind = .terminator → lexeme.source = [';']

/-- A lexical rule is sound if it makes lexemes of the characters it is shown. -/
def LexicalRule.Sound (rule : LexicalRule) : Prop :=
  ∀ {c : Char} {rest : List Char} {lexeme : Lexeme}, rule c rest = some (.ok lexeme) →
    lexeme.ReadFrom (c :: rest)

namespace LexicalRule

/-- A return may take a newline with it; every other blank is one character. -/
theorem sound_blank : Sound blank := by
  intro c rest lexeme h
  unfold blank at h
  split at h
  · cases h
    exact ⟨by simp [Lexeme.verbatim], by simp [Lexeme.verbatim], nofun⟩
  · split at h
    · next hReturn =>
      split at h
      · next hNext =>
        obtain ⟨rest, rfl⟩ := List.head?_eq_some_iff.mp hNext
        cases h
        exact ⟨by simp, by simp [hReturn], nofun⟩
      · cases h
        exact ⟨by simp, by simp [hReturn], nofun⟩
    · split at h
      · cases h
        exact ⟨by simp [Lexeme.verbatim], by simp [Lexeme.verbatim], nofun⟩
      · split at h
        · cases h
          exact ⟨by simp, by simp, nofun⟩
        · cases h

/-- A lexeme of another kind than a terminator has no condition on its spelling. -/
theorem readFrom_of_kind {lexeme : Lexeme} {chars : List Char} (hNil : lexeme.source ≠ [])
    (hPrefix : lexeme.source <+: chars) (hKind : lexeme.kind ≠ .terminator) :
    lexeme.ReadFrom chars :=
  ⟨hNil, hPrefix, fun hTerminator => absurd hTerminator hKind⟩

/-- A literal holds its delimiter at least. -/
theorem readFrom_quotedLiteral {σ : Type} {reader : Reader σ} {state : σ} {kind : LexemeKind}
    {letters : List Char} {delimiter : Char} {place : List Char → List Char} {rest : List Char}
    {lexeme : Lexeme}
    (h : quotedLiteral kind letters delimiter place (reader.read state rest) = .ok lexeme)
    (hKind : kind ≠ .terminator) : lexeme.ReadFrom (letters ++ delimiter :: rest) := by
  obtain ⟨body, -, hSame, hSource⟩ := quotedLiteral_ok h
  exact readFrom_of_kind (by simp [hSource]) (isPrefix_quotedLiteral h) (hSame ▸ hKind)

/-- So does a raw string, in each of its three forms. -/
theorem readFrom_rawString {letter delimiter : Char} {rest : List Char} {lexeme : Lexeme}
    (h : rawString letter delimiter rest = .ok lexeme) :
    lexeme.ReadFrom (letter :: delimiter :: rest) := by
  have hPrefix := isPrefix_rawString h
  unfold rawString at h
  split at h
  · exact readFrom_quotedLiteral h (by decide)
  · cases h
    exact ⟨by simp, hPrefix, nofun⟩
  · dsimp only at h
    split at h
    · cases h
      exact ⟨by simp, hPrefix, nofun⟩
    · cases h

/-- Literals with an opening letter are sound as each of their forms is. -/
theorem sound_lettered : Sound lettered := by
  intro c rest lexeme h
  obtain ⟨signs, form, tail, hForm, rfl, hResult, -⟩ := lettered_eq_form h
  cases hForm with
  | string _ _ | escape => exact readFrom_quotedLiteral hResult.symm (by decide)
  | raw _ => exact readFrom_rawString hResult.symm
  | unicode =>
    unfold unicodeString at hResult
    exact readFrom_quotedLiteral hResult.symm (by decide)

/-- A delimiter opens a string or an identifier. -/
theorem quoted_ok {c : Char} {rest : List Char} {lexeme : Lexeme}
    (h : quoted c rest = some (.ok lexeme)) :
    c = singleQuote ∧ stringLiteral [] singleQuote false rest = .ok lexeme ∨
      (c = doubleQuote ∨ c = backquote) ∧ delimitedIdentifier c rest = .ok lexeme := by
  unfold quoted at h
  split at h
  · next hSingle => exact .inl ⟨hSingle, Option.some.inj h⟩
  · split at h
    · next hOther => exact .inr ⟨hOther, Option.some.inj h⟩
    · cases h

/-- Literals and delimited identifiers without one are sound, too. -/
theorem sound_quoted : Sound quoted := by
  intro c rest lexeme h
  obtain ⟨rfl, hString⟩ | ⟨-, hIdentifier⟩ := quoted_ok h
  · exact readFrom_quotedLiteral hString (by decide)
  · obtain ⟨body, hBody, rfl⟩ := delimitedIdentifier_ok hIdentifier
    exact ⟨by simp, List.cons_prefix_cons.mpr ⟨rfl, Reader.isPrefix_source hBody⟩, nofun⟩

/-- A number is not empty: its first character is a digit, or the period of its fraction. -/
theorem sound_number : Sound number := by
  intro c rest lexeme h
  unfold number at h
  split at h
  · next hFirst =>
    cases h
    -- The first character is a digit of the number or the period after no digits.
    have hDecimal : (c :: rest).takeWhile Char.isDigit ++
        fractionOf ((c :: rest).drop ((c :: rest).takeWhile Char.isDigit).length) ≠ [] := by
      by_cases hDigit : c.isDigit
      · simp [hDigit]
      · have hPeriod : c = '.' := hFirst.resolve_left hDigit
        subst hPeriod
        simp [fractionOf, Char.isDigit]
    refine readFrom_of_kind ?_ (isPrefix_numberLexeme _) ?_
    · unfold numberLexeme
      dsimp only
      split
      · simp
      · split
        · exact hDecimal
        · intro hNil
          have hFront := (List.append_eq_nil_iff.mp hNil).1
          exact hDecimal (List.append_eq_nil_iff.mp hFront).1
    · unfold numberLexeme
      dsimp only
      split
      · simp
      · split <;> simp [Lexeme.verbatim]
  · cases h

/-- A comment is opened by two signs, which say of what form it is. -/
theorem comment_ok {c : Char} {rest : List Char} {lexeme : Lexeme}
    (h : comment c rest = some (.ok lexeme)) :
    (∃ tail, c = '-' ∧ rest = '-' :: tail ∧ lexeme = lineComment tail) ∨
      ∃ tail, c = '/' ∧ rest = '*' :: tail ∧ blockComment tail = .ok lexeme := by
  unfold comment at h
  split at h
  · next tail =>
    cases h
    exact .inl ⟨tail, rfl, rfl, rfl⟩
  · next tail => exact .inr ⟨tail, rfl, rfl, Option.some.inj h⟩
  · cases h

/-- A comment starts with its mark and goes on with a line or with what its reader took. -/
theorem sound_comment : Sound comment := by
  intro c rest lexeme h
  obtain ⟨tail, rfl, rfl, rfl⟩ | ⟨tail, rfl, rfl, hBlock⟩ := comment_ok h
  · refine ⟨by simp [lineComment, Lexeme.verbatim], ?_, nofun⟩
    simp only [lineComment, Lexeme.verbatim, List.cons_prefix_cons, true_and]
    exact prefix_append_of_drop (List.takeWhile_prefix _) (List.take_prefix _ _)
  · obtain ⟨body, hBody, rfl⟩ := blockComment_ok hBlock
    refine ⟨by simp [Lexeme.verbatim], ?_, nofun⟩
    simpa [Lexeme.verbatim] using Reader.isPrefix_source hBody

/-- Only a semicolon makes a terminator. -/
theorem sound_terminator : Sound terminator := by
  intro c rest lexeme h
  unfold terminator at h
  split at h
  · next hMark =>
    cases h
    exact ⟨by simp [Lexeme.verbatim], by simp [Lexeme.verbatim], fun _ => by rw [hMark]; rfl⟩
  · cases h

/-- An operator is one of the spellings of the table, none of which is empty. -/
theorem sound_symbol : Sound symbol := by
  intro c rest lexeme h
  unfold symbol symbolLexeme at h
  rw [Option.map_map, Option.map_eq_some_iff] at h
  obtain ⟨spelling, hFind, hLexeme⟩ := h
  cases hLexeme
  have hPrefix : spelling.isPrefixOf (c :: rest) = true := by simpa using List.find?_some hFind
  have hMem : spelling ∈ symbolSpellings := List.mem_of_find?_eq_some hFind
  refine ⟨?_, List.isPrefixOf_iff_prefix.mp hPrefix, nofun⟩
  have hAll : ∀ spelling ∈ symbolSpellings, spelling ≠ [] := by decide
  exact hAll spelling hMem

/-- Signs make a word or an operator, and it holds the signs at least. -/
theorem readFrom_signLexeme (signs rest : List Char) (hSigns : signs ≠ []) :
    (signLexeme signs rest).ReadFrom (signs ++ rest) := by
  refine readFrom_of_kind ?_ (isPrefix_signLexeme signs rest) ?_
  · unfold signLexeme
    split
    · exact hSigns
    · split
      · exact hSigns
      · simp [wordLexeme, Lexeme.verbatim]
  · unfold signLexeme
    split
    · simp [Lexeme.verbatim]
    · split <;> simp [wordLexeme, Lexeme.verbatim]

theorem sound_sign : Sound sign := by
  intro c rest lexeme h
  unfold sign at h
  split at h
  · cases h
    exact readFrom_signLexeme ['@', '@'] _ (by simp)
  · cases h
    exact readFrom_signLexeme ['@'] _ (by simp)
  · cases h
    exact readFrom_signLexeme ['#'] _ (by simp)
  · cases h

theorem sound_placeholder : Sound placeholder := by
  intro c rest lexeme h
  unfold placeholder at h
  split at h
  · next hMark =>
    cases h
    refine ⟨by simp [placeholderLexeme, Lexeme.verbatim], ?_, nofun⟩
    rw [hMark]
    exact List.cons_prefix_cons.mpr ⟨rfl, List.takeWhile_prefix _⟩
  · cases h

theorem sound_word : Sound word := by
  intro c rest lexeme h
  unfold word at h
  split at h
  · cases h
    exact ⟨by simp [wordLexeme, Lexeme.verbatim], isPrefix_wordLexeme [c] rest, nofun⟩
  · cases h

/-- What a dollar sign opens is a quotation with a tag or without, or an operator. -/
theorem sound_dollar : Sound dollar := by
  intro c rest lexeme h
  unfold dollar at h
  split at h
  · next hMark =>
    subst hMark
    have hTag : rest.takeWhile isTagChar <+: rest := List.takeWhile_prefix _
    obtain ⟨text, body, rfl, hBody, rfl⟩ | ⟨text, body, hText, hBody, rfl⟩ | rfl :=
      dollarLexeme_ok (Option.some.inj h)
    · refine ⟨by simp [Lexeme.verbatim], ?_, nofun⟩
      simpa [Lexeme.verbatim] using Reader.isPrefix_source hBody
    · refine ⟨by simp [Lexeme.verbatim], ?_, nofun⟩
      -- Tag, dollar sign and text follow each other in the rest.
      have hQuoted : '$' :: body.source <+: rest.drop (rest.takeWhile isTagChar).length := by
        rw [hText]
        exact List.cons_prefix_cons.mpr ⟨rfl, Reader.isPrefix_source hBody⟩
      exact List.cons_prefix_cons.mpr ⟨rfl, prefix_append_of_drop hTag hQuoted⟩
    · exact ⟨by simp [Lexeme.verbatim], List.cons_prefix_cons.mpr ⟨rfl, hTag⟩, nofun⟩
  · cases h

/-- Every rule is sound. -/
theorem sound_of_mem_all {rule : LexicalRule} (h : rule ∈ all) : Sound rule := by
  simp only [all, List.mem_cons, List.not_mem_nil, or_false] at h
  rcases h with rfl | rfl | rfl | rfl | rfl | rfl | rfl | rfl | rfl | rfl | rfl
  · exact sound_blank
  · exact sound_lettered
  · exact sound_quoted
  · exact sound_number
  · exact sound_comment
  · exact sound_terminator
  · exact sound_symbol
  · exact sound_sign
  · exact sound_placeholder
  · exact sound_word
  · exact sound_dollar

end LexicalRule

/-! ## All rules -/

/-- What every rule says of the lexemes it makes holds of the lexeme that a character starts. -/
theorem readLexeme_ok {c : Char} {rest : List Char} {lexeme : Lexeme}
    (h : readLexeme c rest = .ok lexeme) :
    (∃ rule ∈ LexicalRule.all, rule c rest = some (.ok lexeme)) ∨
      ((∀ rule ∈ LexicalRule.all, rule c rest = none) ∧ lexeme = .verbatim .operator [c]) := by
  unfold readLexeme at h
  -- The first rule that speaks decides; a character that no rule speaks of is an operator.
  cases hFind : LexicalRule.all.findSome? fun rule => rule c rest with
  | none =>
    rw [hFind] at h
    cases h
    exact .inr ⟨by simpa using hFind, rfl⟩
  | some result =>
    rw [hFind] at h
    obtain ⟨rule, hMem, hRule⟩ := List.exists_of_findSome?_eq_some hFind
    exact .inl ⟨rule, hMem, by rw [hRule]; exact congrArg some h⟩

/-- A lexeme is read from the front of the rest of the script. -/
theorem readLexeme_readFrom {c : Char} {rest : List Char} {lexeme : Lexeme}
    (h : readLexeme c rest = .ok lexeme) : lexeme.ReadFrom (c :: rest) := by
  obtain ⟨rule, hMem, hRule⟩ | ⟨-, rfl⟩ := readLexeme_ok h
  · exact LexicalRule.sound_of_mem_all hMem hRule
  · exact ⟨by simp [Lexeme.verbatim], by simp [Lexeme.verbatim], nofun⟩

/-- A lexeme starts with the character it was read at. -/
theorem readLexeme_source {c : Char} {rest : List Char} {lexeme : Lexeme}
    (h : readLexeme c rest = .ok lexeme) :
    ∃ taken after, lexeme.source = c :: taken ∧ rest = taken ++ after := by
  have hRead := readLexeme_readFrom h
  cases hSource : lexeme.source with
  | nil => exact absurd hSource hRead.ne_nil
  | cons d taken =>
    have hPrefix := hRead.isPrefix
    rw [hSource, List.cons_prefix_cons] at hPrefix
    obtain ⟨rfl, after, hAfter⟩ := hPrefix
    exact ⟨taken, after, rfl, hAfter.symm⟩

/-! ## Whole scripts -/

/-- The characters that some lexemes were read from. -/
def sourceOf (lexemes : List Lexeme) : List Char := lexemes.flatMap Lexeme.source

@[simp] theorem sourceOf_nil : sourceOf [] = [] := rfl

@[simp] theorem sourceOf_cons (lexeme : Lexeme) (rest : List Lexeme) :
    sourceOf (lexeme :: rest) = lexeme.source ++ sourceOf rest := rfl

@[simp] theorem sourceOf_append (first second : List Lexeme) :
    sourceOf (first ++ second) = sourceOf first ++ sourceOf second := by
  simp [sourceOf]

/-- The lexemes are the ones that their own characters, followed by some others, start with. -/
def Lexes : List Lexeme → List Char → Prop
  | [], _ => True
  | lexeme :: rest, after =>
    (∃ c taken, lexeme.source = c :: taken ∧
      readLexeme c (taken ++ (sourceOf rest ++ after)) = .ok lexeme) ∧ Lexes rest after

/-- One more lexeme is cut off where the first character of its source is read. -/
theorem lex_cons_of_ok {c : Char} {taken rest : List Char} {lexeme : Lexeme}
    (hSource : lexeme.source = c :: taken) (h : readLexeme c (taken ++ rest) = .ok lexeme) :
    lex (c :: (taken ++ rest)) = ⟨lexeme :: (lex rest).lexemes, (lex rest).fault⟩ := by
  rw [lex_cons, h]
  simp [hSource]

/-- Cutting goes on after some lexemes as if they were not there. -/
theorem lex_of_lexes {lexemes : List Lexeme} {after : List Char} (h : Lexes lexemes after) :
    lex (sourceOf lexemes ++ after) = ⟨lexemes ++ (lex after).lexemes, (lex after).fault⟩ := by
  induction lexemes with
  | nil => rfl
  | cons lexeme rest ih =>
    obtain ⟨⟨c, taken, hSource, hRead⟩, hRest⟩ := h
    have hCut := lex_cons_of_ok hSource hRead
    rw [ih hRest] at hCut
    rw [sourceOf_cons, hSource]
    simpa using hCut

/-- The lexemes of a script without fault are read from the whole script. -/
theorem lexes_of_lex {script : List Char} {lexemes : List Lexeme}
    (h : lex script = ⟨lexemes, none⟩) : Lexes lexemes [] ∧ sourceOf lexemes = script := by
  -- A lexeme may take more than one character, so the induction is on the length of the script.
  induction hLength : script.length using Nat.strong_induction_on generalizing script lexemes with
  | _ n ih =>
    cases script with
    | nil =>
      rw [lex_nil] at h
      cases h
      exact ⟨trivial, rfl⟩
    | cons c rest =>
      cases hRead : readLexeme c rest with
      | error fault =>
        rw [lex_cons, hRead] at h
        cases h
      | ok lexeme =>
        obtain ⟨taken, after, hSource, rfl⟩ := readLexeme_source hRead
        rw [lex_cons_of_ok hSource hRead] at h
        cases hAfter : lex after with
        | mk others fault =>
          rw [hAfter] at h
          cases h
          have hShorter : after.length < n := by
            rw [← hLength]
            simp only [List.length_cons, List.length_append]
            omega
          obtain ⟨hOthers, hRest⟩ := ih after.length hShorter hAfter rfl
          refine ⟨⟨⟨c, taken, hSource, ?_⟩, hOthers⟩, ?_⟩
          · rw [hRest, List.append_nil]
            exact hRead
          · rw [sourceOf_cons, hSource, hRest]
            rfl

/-- Lexemes are read one after the other, so they can be looked at in two parts. -/
theorem lexes_append {first second : List Lexeme} {after : List Char} :
    Lexes (first ++ second) after ↔
      Lexes first (sourceOf second ++ after) ∧ Lexes second after := by
  induction first with
  | nil => simp [Lexes]
  | cons lexeme rest ih =>
    simp only [List.cons_append, Lexes, sourceOf_append, List.append_assoc, ih]
    exact and_assoc.symm

end SqlScript
