import Mathlib.Data.List.Find
import SqlScript.Proofs.Lexeme.Form
import SqlScript.Proofs.Lexeme.Stop

/-!
# Lexemes before a seam

Where a script goes on with a stop, a lexeme in front of it does not depend on what else comes
after: the script may be cut off or continued there in another way. The characters behind such a
seam matter in two cases only. A lexeme may reach beyond the seam, or it may be one of the few
(`Loose`) that ends at the seam for want of another character: a return before a newline, a sign
that swallows the next character, a line comment without its newline.

`LexicalRule.Local` is the property for a single rule.

## Results

* `Reader.read_append_stops` — a reader that stops before the seam stops there in every script.
* `readLexeme_append_stops`  — the same for lexemes that are not loose.
* `lexes_append_stops`       — the same for sequences of lexemes.
-/

namespace SqlScript

/-! ## Readers -/

/-- A reader is quiet if it leaves at a stop exactly where the script may end. -/
def Reader.Quiet {σ : Type} (reader : Reader σ) : Prop :=
  ∀ state c, isStop c = true → (reader.step state c = .leave ↔ reader.atEnd state = none)

/-- A quiet reader that stops before a stop stops before every other one. -/
theorem Reader.Quiet.carries {σ : Type} {reader : Reader σ} (h : reader.Quiet)
    {after after' : List Char} (hAfter : Stops after) (hAfter' : Stops after') :
    reader.Carries after after' := by
  have hNone : ∀ {state chars}, Stops chars →
      (reader.EndsAt state chars ↔ reader.atEnd state = none) := by
    intro state chars hChars
    cases chars with
    | nil => exact Iff.rfl
    | cons c rest => exact h state c (stops_cons.mp hChars)
  exact fun state hEnds => (hNone hAfter').mpr ((hNone hAfter).mp hEnds)

/-- A quiet reader that is done before a seam is done there in every script. -/
theorem Reader.read_append_stops {σ : Type} {reader : Reader σ} (hQuiet : reader.Quiet)
    {front after after' : List Char} (hAfter : Stops after) (hAfter' : Stops after') {state : σ}
    {body : Body} (h : reader.read state (front ++ after) = .ok body)
    (hFits : body.source.length ≤ front.length) :
    reader.read state (front ++ after') = .ok body :=
  read_append (hQuiet.carries hAfter hAfter') h hFits

/-- A quotation may end only behind its delimiter, and a stop is none, so a stop leaves the reader
there and nowhere else. -/
theorem quiet_quotedReader {delimiter : Char} (hDelimiter : delimiter ∈ lexicalSigns)
    (escapes : Bool) (unclosed : Cause) : (quotedReader delimiter escapes unclosed).Quiet := by
  intro state c hStop
  have hNe : c ≠ delimiter := fun hEq => not_mem_lexicalSigns hStop (hEq ▸ hDelimiter)
  cases state with
  | inside =>
    simp only [quotedReader, hNe, if_false]
    split <;> simp
  | afterDelimiter => simp [quotedReader, hNe]
  | afterBackslash => simp [quotedReader]

/-- A reader is sealed if it has to read its closing sign: it never leaves before a character, and
the script may not end before that sign. -/
structure Reader.Sealed {σ : Type} (reader : Reader σ) : Prop where
  atEnd : ∀ state, reader.atEnd state ≠ none
  ne_leave : ∀ state c, reader.step state c ≠ .leave

/-- A sealed reader has no place where a stop could leave it. -/
theorem Reader.Sealed.quiet {σ : Type} {reader : Reader σ} (h : reader.Sealed) : reader.Quiet :=
  fun state c _ => iff_of_false (h.ne_leave state c) (h.atEnd state)

/-- A quotation with three delimiters ends at the last of them. -/
theorem sealed_tripleReader (delimiter : Char) : (tripleReader delimiter).Sealed where
  atEnd _ := nofun
  ne_leave count c := by
    simp only [tripleReader]
    split
    · split <;> nofun
    · nofun

/-- So does a block comment at its last sign. -/
theorem sealed_blockCommentReader : blockCommentReader.Sealed where
  atEnd _ := nofun
  ne_leave state c := by
    simp only [blockCommentReader]
    split
    · nofun
    · split
      · split <;> nofun
      · nofun

/-- So does a quotation between dollar signs. -/
theorem sealed_dollarReader : dollarReader.Sealed where
  atEnd _ := nofun
  ne_leave state c := by
    simp only [dollarReader]
    split
    · split <;> nofun
    · nofun

/-- So does one between tags, since a character that does not go on with the tag leads back into
the text. -/
theorem sealed_tagReader (tag : List Char) : (tagReader tag).Sealed where
  atEnd _ := nofun
  ne_leave state c := by
    cases state with
    | inside => nofun
    | within left =>
      cases left with
      | nil =>
        simp only [tagReader]
        split <;> nofun
      | cons next left => nofun

/-- The move takes the character and goes to one of some states, or finds a fault. -/
def Move.GoesOn {σ : Type} (P : σ → Prop) : Move σ → Prop
  | .take next _ => P next
  | .spoil _ => True
  | .finish | .leave => False

/-- What holds of the next state may be weakened. -/
theorem Move.GoesOn.mono {σ : Type} {P Q : σ → Prop} {move : Move σ} (h : move.GoesOn P)
    (hImp : ∀ state, P state → Q state) : move.GoesOn Q := by
  cases move with
  | take next text => exact hImp next h
  | spoil cause => trivial
  | finish => exact h
  | leave => exact h

/-- A move that goes on does not leave. -/
theorem Move.GoesOn.ne_leave {σ : Type} {P : σ → Prop} {move : Move σ} (h : move.GoesOn P) :
    move ≠ .leave := by
  rintro rfl
  exact h

-- Except after a quote, a literal with escapes only comes to a place where it may end by a quote.

/-- The end of an escape leads back into the literal or is a fault. -/
theorem EscapeState.goesOn_conclude (meaning : Option Char) :
    (conclude meaning).GoesOn (· ≠ afterQuote) := by
  unfold conclude
  split
  · split
    · trivial
    · exact nofun
  · trivial

/-- Outside of escapes only a quote can end the literal. -/
theorem EscapeState.goesOn_plain (c : Char) :
    (plain c).GoesOn fun next => next = afterQuote → c = singleQuote := by
  unfold plain
  split
  · next hQuote => exact fun _ => hQuote
  · split <;> exact nofun

/-- A character that ends an escape without being part of it is read as any other. -/
theorem EscapeState.goesOn_concludeBefore (meaning : Option Char) (c : Char) :
    (concludeBefore meaning c).GoesOn fun next => next = afterQuote → c = singleQuote := by
  unfold concludeBefore
  split
  · have hPlain := goesOn_plain c
    -- The escape adds its meaning in front and goes where the character goes by itself.
    cases hMove : plain c with
    | take next text =>
      rw [hMove] at hPlain
      exact hPlain
    | spoil cause => trivial
    | finish | leave =>
      rw [hMove] at hPlain
      exact hPlain
  · trivial

/-- A digit of a code point is no quote, so the literal cannot end with it. -/
theorem EscapeState.goesOn_codePointDigit (left value : Nat) (c : Char) :
    (codePointDigit left value c).GoesOn (· ≠ afterQuote) := by
  unfold codePointDigit
  split
  · dsimp only
    split
    · exact goesOn_conclude _
    · exact nofun
  · trivial

/-- Neither can it with a digit of a byte. Where another character ends the escape, that one may be
a quote. -/
theorem EscapeState.goesOn_byteDigit (radix left value : Nat) (c : Char) :
    (byteDigit radix left value c).GoesOn fun next => next = afterQuote → c = singleQuote := by
  unfold byteDigit
  split
  · dsimp only
    split
    · exact (goesOn_conclude _).mono fun _ hNe hSame => absurd hSame hNe
    · exact nofun
  · exact goesOn_concludeBefore _ c

/-- The invariant of literals with escapes: from every state but the one behind a quote the next
character is taken, and only a quote leads to a state in which the literal may end. -/
theorem EscapeState.goesOn_step {state : EscapeState} (h : state ≠ afterQuote) (c : Char) :
    (step state c).GoesOn fun next => next = afterQuote → c = singleQuote := by
  -- Where the literal cannot end at all, nothing is to be said of the character.
  have hOther : ∀ {move : Move EscapeState}, move.GoesOn (· ≠ afterQuote) →
      move.GoesOn fun next => next = afterQuote → c = singleQuote :=
    fun hMove => hMove.mono fun _ hNe hSame => absurd hSame hNe
  cases state with
  | inside => exact goesOn_plain c
  | afterQuote => exact absurd rfl h
  | afterBackslash =>
    simp only [step, escape]
    repeat' split
    all_goals first | exact hOther (goesOn_conclude _) | exact nofun
  | codePoint digits =>
    simp only [step]
    split
    · exact nofun
    · exact hOther (goesOn_codePointDigit _ _ c)
  | codePointDigits left value => exact hOther (goesOn_codePointDigit left value c)
  | hexByte =>
    simp only [step]
    split
    · exact nofun
    · exact goesOn_concludeBefore _ c
  | byteDigits radix left value => exact goesOn_byteDigit radix left value c

/-- A stop is no quote, so a literal with escapes goes on with it, unless it has ended before. -/
theorem quiet_escapeReader : escapeReader.Quiet := by
  intro state c hStop
  have hNe : c ≠ singleQuote :=
    fun hEq => not_mem_lexicalSigns hStop (hEq ▸ List.mem_cons_self)
  by_cases hState : state = .afterQuote
  · simp [hState, escapeReader, EscapeState.step, hNe]
  · have hStep := (EscapeState.goesOn_step hState c).ne_leave
    cases state <;> simp_all [escapeReader]

/-- A digit of a code point does not end the literal. -/
theorem UnicodeState.goesOn_digit (left value : Nat) (c : Char) :
    (digit left value c).GoesOn (· ≠ afterQuote) := by
  unfold digit
  split
  · trivial
  · dsimp only
    split
    · split
      · exact nofun
      · trivial
    · exact nofun

/-- The same invariant for literals with code points. -/
theorem UnicodeState.goesOn_step {state : UnicodeState} (h : state ≠ afterQuote) (c : Char) :
    (step state c).GoesOn fun next => next = afterQuote → c = singleQuote := by
  have hDigit : ∀ left value, (digit left value c).GoesOn
      fun next => next = afterQuote → c = singleQuote :=
    fun left value => (goesOn_digit left value c).mono fun _ hNe hSame => absurd hSame hNe
  -- Only the inside of the literal is left by a quote, and digits lead back to it.
  cases state with
  | inside =>
    simp only [step]
    split
    · next hQuote => exact fun _ => hQuote
    · split <;> exact nofun
  | afterQuote => exact absurd rfl h
  | afterBackslash =>
    simp only [step]
    split
    · exact nofun
    · split
      · exact nofun
      · exact hDigit _ _
  | digits left value => exact hDigit left value

theorem quiet_unicodeReader : unicodeReader.Quiet := by
  intro state c hStop
  have hNe : c ≠ singleQuote :=
    fun hEq => not_mem_lexicalSigns hStop (hEq ▸ List.mem_cons_self)
  by_cases hState : state = .afterQuote
  · simp [hState, unicodeReader, UnicodeState.step, hNe]
  · have hStep := (UnicodeState.goesOn_step hState c).ne_leave
    cases state <;> simp_all [unicodeReader]

/-! ## Numbers and operators

These are found in the characters before the seam alone. -/

section Runs

variable {after : List Char} (hAfter : Stops after)

include hAfter

/-- A fraction starts with a period and goes on with digits, and a stop is neither. -/
theorem fractionOf_append_stops (chars : List Char) :
    fractionOf (chars ++ after) = fractionOf chars := by
  have hCons : ∀ c rest, fractionOf (c :: rest) =
      if c = '.' then '.' :: rest.takeWhile Char.isDigit else [] := by
    intro c rest
    unfold fractionOf
    split <;> simp_all
  -- A stop is no period, so it opens no fraction of its own.
  cases chars with
  | nil =>
    cases after with
    | nil => rfl
    | cons c rest =>
      have hNe := hAfter.head?_ne (by decide : '.' ∈ lexicalSigns)
      rw [List.nil_append, hCons, if_neg (by simpa using hNe)]
      rfl
  | cons c rest =>
    rw [List.cons_append, hCons, hCons, takeWhile_append_stops (fun _ => not_isDigit) _ hAfter]

/-- A stop is no sign of an exponent. -/
theorem signOf_append_stops (chars : List Char) : signOf (chars ++ after) = signOf chars := by
  -- Nor is it a sign.
  cases chars with
  | nil =>
    cases after with
    | nil => rfl
    | cons c rest =>
      have hPlus := hAfter.head?_ne (by decide : '+' ∈ lexicalSigns)
      have hMinus := hAfter.head?_ne (by decide : '-' ∈ lexicalSigns)
      unfold signOf
      split <;> simp_all
  | cons c rest =>
    rw [List.cons_append]
    unfold signOf
    split <;> split <;> simp_all

/-- A stop is no suffix. -/
theorem suffixOf_append_stops (chars : List Char) : suffixOf (chars ++ after) = suffixOf chars := by
  cases chars with
  | nil =>
    cases after with
    | nil => rfl
    | cons c rest =>
      have hNe := hAfter.head?_ne (by decide : 'L' ∈ lexicalSigns)
      unfold suffixOf
      split <;> simp_all
  | cons c rest =>
    rw [List.cons_append]
    unfold suffixOf
    split <;> split <;> simp_all

/-- An exponent starts with a letter, and its sign and digits are before the seam as well. -/
theorem exponentOf_append_stops (chars : List Char) :
    exponentOf (chars ++ after) = exponentOf chars := by
  cases chars with
  | nil =>
    cases after with
    | nil => rfl
    | cons c rest =>
      have hSmall := hAfter.head?_ne (by decide : 'e' ∈ lexicalSigns)
      have hLarge := hAfter.head?_ne (by decide : 'E' ∈ lexicalSigns)
      simp_all [exponentOf]
  | cons c rest =>
    -- The digits start behind the sign, and the sign is a prefix of what is before the seam.
    have hDrop := drop_append_of_prefix (isPrefix_signOf rest) after
    simp only [List.cons_append, exponentOf]
    rw [signOf_append_stops hAfter, hDrop,
      takeWhile_append_stops (fun _ => not_isDigit) _ hAfter]

/-- The parts of a number follow each other before the seam, so each is found without what is behind
it. -/
theorem numberLexeme_append_stops (chars : List Char) :
    numberLexeme (chars ++ after) = numberLexeme chars := by
  have hWhole : chars.takeWhile Char.isDigit <+: chars := List.takeWhile_prefix _
  have hDecimal := prefix_append_of_drop hWhole (isPrefix_fractionOf _)
  have hX : 'x' ∈ lexicalSigns := by decide
  unfold numberLexeme
  dsimp only
  -- Digits, fraction, exponent and suffix, each behind the prefix that the ones before it make.
  rw [takeWhile_append_stops (fun _ => not_isDigit) _ hAfter, drop_append_of_prefix hWhole,
    fractionOf_append_stops hAfter, drop_append_of_prefix hDecimal,
    exponentOf_append_stops hAfter, drop_append_of_prefix (isPrefix_exponentOf _),
    suffixOf_append_stops hAfter]
  simp only [head?_append_stops hAfter hX]
  split
  · next h =>
    -- The `x` stands before the seam, and so do the digits after it.
    obtain ⟨rest, hRest⟩ := List.head?_eq_some_iff.mp h.2
    rw [hRest]
    simp only [List.cons_append, List.drop_succ_cons, List.drop_zero]
    rw [takeWhile_append_stops (fun _ => not_isHexDigit) _ hAfter]
  · rfl

/-- A spelling without stops is found before the seam or not at all. -/
theorem isPrefixOf_append_stops {spelling : List Char}
    (hSpelling : ∀ c ∈ spelling, isStop c = false) (chars : List Char) :
    spelling.isPrefixOf (chars ++ after) = spelling.isPrefixOf chars := by
  induction spelling generalizing chars with
  | nil => rfl
  | cons sign rest ih =>
    cases chars with
    | nil =>
      cases after with
      | nil => rfl
      | cons c others =>
        -- The spelling would have to go on with the stop.
        have hNe : sign ≠ c := by
          rintro rfl
          have hStop := stops_cons.mp hAfter
          rw [hSpelling sign List.mem_cons_self] at hStop
          cases hStop
        simp [List.isPrefixOf, hNe]
    | cons c others =>
      simp only [List.cons_append, List.isPrefixOf]
      rw [ih (fun d hd => hSpelling d (List.mem_cons_of_mem _ hd))]

/-- No operator has a stop in its spelling, so the same spelling is the first that fits. -/
theorem symbolLexeme_append_stops (chars : List Char) :
    symbolLexeme (chars ++ after) = symbolLexeme chars := by
  unfold symbolLexeme
  congr 1
  refine List.find?_congr fun spelling hMem => ?_
  exact isPrefixOf_append_stops hAfter (fun c => not_isStop_of_spelling hMem) chars

end Runs

/-! ## Single rules -/

/-- The characters are an opening that the next character would go on with: a return, the signs of
a word, or a line comment without its newline. -/
def Loose (chars : List Char) : Prop :=
  chars = ['\r'] ∨ chars = ['@'] ∨ chars = ['@', '@'] ∨ chars = ['#'] ∨
    ∃ line, chars = '-' :: '-' :: line ∧ '\n' ∉ line

/-- A rule is local if it says the same of the characters before a seam in every script. Only a
loose lexeme at the seam depends on the first character behind. -/
structure LexicalRule.Local (rule : LexicalRule) : Prop where
  silent : ∀ {c : Char} {front after after' : List Char}, Stops after → Stops after' →
    rule c (front ++ after) = none → rule c (front ++ after') = none
  speaks : ∀ {c : Char} {front after after' : List Char}, Stops after → Stops after' →
    ∀ {lexeme : Lexeme}, rule c (front ++ after) = some (.ok lexeme) →
      lexeme.source.length ≤ front.length + 1 →
      (Loose (c :: front) → after.head? = after'.head?) →
      rule c (front ++ after') = some (.ok lexeme)

namespace LexicalRule

/-- A rule that does not look behind a seam is local. -/
theorem local_of_eq {rule : LexicalRule}
    (h : ∀ c front after, Stops after → rule c (front ++ after) = rule c front) : Local rule where
  silent := by
    intro c front after after' hAfter hAfter' hNone
    rw [h c front after hAfter] at hNone
    rw [h c front after' hAfter', hNone]
  speaks := by
    intro c front after after' hAfter hAfter' lexeme hSome _ _
    rw [h c front after hAfter] at hSome
    rw [h c front after' hAfter', hSome]

/-- Numbers are found before the seam. -/
theorem local_number : Local number := by
  refine local_of_eq fun c front after hAfter => ?_
  have hSame := numberLexeme_append_stops hAfter (c :: front)
  rw [List.cons_append] at hSame
  simp only [number, hSame]

theorem local_terminator : Local terminator := local_of_eq fun _ _ _ _ => rfl

/-- So are operators. -/
theorem local_symbol : Local symbol := by
  refine local_of_eq fun c front after hAfter => ?_
  have hSame := symbolLexeme_append_stops hAfter (c :: front)
  rw [List.cons_append] at hSame
  simp only [symbol, hSame]

/-- A placeholder ends before the first character that is not numeric, as a stop is. -/
theorem local_placeholder : Local placeholder := by
  refine local_of_eq fun c front after hAfter => ?_
  simp only [placeholder, placeholderLexeme]
  rw [takeWhile_append_stops (fun _ => not_isNumeric) _ hAfter]

/-- A stop is no character of a word, so a word ends before it. -/
theorem wordLexeme_append_stops (opening front : List Char) {after : List Char}
    (hAfter : Stops after) : wordLexeme opening (front ++ after) = wordLexeme opening front := by
  simp only [wordLexeme]
  rw [takeWhile_append_stops (fun _ => not_isWordChar) _ hAfter]

/-- Words are found before the seam, too. -/
theorem local_word : Local word := by
  refine local_of_eq fun c front after hAfter => ?_
  simp only [word, wordLexeme_append_stops [c] front hAfter]

/-- A blank is one character, except for a return, which takes a newline behind it. -/
theorem local_blank : Local blank where
  silent _ _ h := speaksOf_blank.silent rfl h
  speaks := by
    intro c front after after' _ _ lexeme h hFits hLoose
    cases front with
    | cons d front => exact h
    | nil =>
      rw [List.nil_append] at h ⊢
      unfold blank at h ⊢
      split
      · simp_all
      · next hNewline =>
        rw [if_neg hNewline] at h
        split
        · next hReturn =>
          -- A carriage return takes up a newline, so it is loose.
          subst hReturn
          rw [if_pos rfl] at h
          rw [← hLoose (.inl rfl)]
          exact h
        · next hReturn =>
          rw [if_neg hReturn] at h
          exact h

end LexicalRule

/-! ## Forms of literals

A form makes a lexeme of the characters after an opening; it is settled if a lexeme that ends before
the seam ends there in every script. -/

/-- A lexeme of the form, made of the opening characters and some more before the seam, is the same
in every script. -/
def Settled (opening : Nat) (form : List Char → Except Fault Lexeme) : Prop :=
  ∀ {front after after' : List Char}, Stops after → Stops after' → ∀ {lexeme : Lexeme},
    form (front ++ after) = .ok lexeme → lexeme.source.length ≤ front.length + opening →
      form (front ++ after') = .ok lexeme

/-- A quiet reader settles every quotation that is read with it. -/
theorem settled_quotedLiteral {σ : Type} {reader : Reader σ} (hQuiet : reader.Quiet)
    (state : σ) (kind : LexemeKind) (letters : List Char) (delimiter : Char)
    (place : List Char → List Char) :
    Settled (letters.length + 1) fun rest =>
      quotedLiteral kind letters delimiter place (reader.read state rest) :=
  fun hAfter hAfter' => continues_quotedLiteral (hQuiet.carries hAfter hAfter') state kind letters
    delimiter place

/-- Plain literals are settled, with or without backslash escapes. -/
theorem settled_stringLiteral (letters : List Char) {delimiter : Char}
    (hDelimiter : delimiter ∈ lexicalSigns) (escapes : Bool) :
    Settled (letters.length + 1) (stringLiteral letters delimiter escapes) :=
  settled_quotedLiteral (quiet_quotedReader hDelimiter _ _) _ _ _ _ _

theorem settled_escapeString (letter : Char) : Settled 2 (escapeString letter) :=
  settled_quotedLiteral quiet_escapeReader _ _ [letter] _ _

theorem settled_unicodeString (letter : Char) : Settled 3 (unicodeString letter) := by
  unfold unicodeString
  exact settled_quotedLiteral quiet_unicodeReader _ _ [letter, '&'] _ _

/-- The delimiters that follow the first one of a raw string stand before the seam. -/
theorem delimiters_append_stops {delimiter : Char} (hDelimiter : delimiter ∈ lexicalSigns)
    (front : List Char) {after : List Char} (hAfter : Stops after) :
    ((front ++ after).take 2).takeWhile (· = delimiter) =
      (front.take 2).takeWhile (· = delimiter) := by
  have hClass : ∀ c, isStop c = true → decide (c = delimiter) = false := by
    intro c hStop
    exact decide_eq_false fun hEq => not_mem_lexicalSigns hStop (hEq ▸ hDelimiter)
  rw [List.take_append, takeWhile_append_stops hClass _ (hAfter.take _)]

/-- How a raw string opens depends on up to two more delimiters. They stand before the seam, and so
does the rest of the literal. -/
theorem settled_rawString (letter : Char) {delimiter : Char}
    (hDelimiter : delimiter ∈ lexicalSigns) : Settled 2 (rawString letter delimiter) := by
  intro front after after' hAfter hAfter' lexeme h hFits
  unfold rawString at h ⊢
  rw [delimiters_append_stops hDelimiter front hAfter] at h
  rw [delimiters_append_stops hDelimiter front hAfter']
  split at h
  · exact settled_quotedLiteral (quiet_quotedReader hDelimiter _ _) _ _ [letter] _ _ hAfter
      hAfter' h hFits
  · exact h
  · next hNone hOne =>
    -- The two other delimiters of the opening stand before the seam.
    have hTwo : 2 ≤ front.length := by
      match front with
      | [] => simp at hNone
      | [c] => by_cases hc : c = delimiter <;> simp [hc] at hNone hOne
      | _ :: _ :: _ => simp
    rw [List.drop_append_of_le_length hTwo] at h ⊢
    simp only at h ⊢
    split at h
    · next body hBody =>
      cases h
      have hShorter : body.source.length ≤ (front.drop 2).length := by
        rw [List.length_drop]
        simp only [List.length_cons, List.length_append, List.length_nil] at hFits
        omega
      rw [Reader.read_append_stops (sealed_tripleReader _).quiet hAfter hAfter' hBody hShorter]
    · cases h

/-- Delimited identifiers are settled, since their reader is quiet. -/
theorem settled_delimitedIdentifier {delimiter : Char} (hDelimiter : delimiter ∈ lexicalSigns) :
    Settled 1 (delimitedIdentifier delimiter) :=
  fun hAfter hAfter' =>
    continues_delimitedIdentifier ((quiet_quotedReader hDelimiter _ _).carries hAfter hAfter')

theorem settled_blockComment : Settled 2 blockComment :=
  fun hAfter hAfter' =>
    continues_blockComment (sealed_blockCommentReader.quiet.carries hAfter hAfter')

/-- A quotation between dollar signs is settled, with a tag and without. -/
theorem settled_dollarLiteral {σ : Type} {reader : Reader σ} (hQuiet : reader.Quiet)
    (state : σ) (opening : List Char) :
    Settled opening.length fun rest => dollarLiteral opening (reader.read state rest) :=
  fun hAfter hAfter' => continues_dollarLiteral (hQuiet.carries hAfter hAfter') state opening

/-- Quotes are among the signs that have a meaning for a lexeme. -/
theorem mem_lexicalSigns_of_quote {delimiter : Char}
    (h : delimiter ∈ [singleQuote, doubleQuote]) : delimiter ∈ lexicalSigns := by
  simp only [List.mem_cons, List.not_mem_nil, or_false] at h
  rcases h with rfl | rfl <;> decide

/-- A letter opens a settled form together with some signs. -/
theorem LetteredForm.settled {letter : Char} {signs : List Char}
    {form : List Char → Except Fault Lexeme} (h : LetteredForm letter signs form) :
    (∀ sign ∈ signs, sign ∈ lexicalSigns) ∧ Settled (signs.length + 1) form := by
  -- One case for each form, with the signs that stand behind its letter.
  cases h with
  | string hDelimiter escapes =>
    have hSign := mem_lexicalSigns_of_quote hDelimiter
    exact ⟨by simpa using hSign, settled_stringLiteral [letter] hSign escapes⟩
  | raw hDelimiter =>
    have hSign := mem_lexicalSigns_of_quote hDelimiter
    exact ⟨by simpa using hSign, settled_rawString letter hSign⟩
  | escape =>
    have hSign : singleQuote ∈ lexicalSigns := by decide
    exact ⟨by simpa using hSign, settled_escapeString letter⟩
  | unicode =>
    have hSigns : '&' ∈ lexicalSigns ∧ singleQuote ∈ lexicalSigns := by decide
    exact ⟨by simpa using hSigns, settled_unicodeString letter⟩

/-! ## Rules for literals -/

namespace LexicalRule

/-- A letter opens a literal only with the signs behind it, which are no stops. So a script has the
literal if and only if it has these signs before the seam. -/
theorem local_lettered : Local lettered where
  silent := by
    intro c front after after' hAfter hAfter' h
    cases hSome : lettered c (front ++ after') with
    | none => rfl
    | some result =>
      -- A literal of the other script opens before the seam, so both have it.
      obtain ⟨signs, form, tail, hLetter, hFront, -, hForm⟩ := lettered_eq_form hSome
      obtain ⟨tail, rfl, -⟩ := append_of_append_stops hFront hAfter' hLetter.settled.1
      rw [List.append_assoc, hForm] at h
      cases h
  speaks := by
    intro c front after after' hAfter hAfter' lexeme h hFits _
    obtain ⟨signs, form, tail, hLetter, hFront, hResult, hForm⟩ := lettered_eq_form h
    obtain ⟨tail, rfl, rfl⟩ := append_of_append_stops hFront hAfter hLetter.settled.1
    rw [List.append_assoc, hForm]
    refine congrArg some (hLetter.settled.2 hAfter hAfter' hResult.symm ?_)
    rw [List.length_append] at hFits
    omega

/-- Literals and delimited identifiers are settled, and their first character alone says which it
is. -/
theorem local_quoted : Local quoted where
  silent _ _ h := speaksOf_quoted.silent rfl h
  speaks := by
    intro c front after after' hAfter hAfter' lexeme h hFits _
    unfold quoted at h ⊢
    split at h
    · next hSingle =>
      rw [if_pos hSingle]
      refine congrArg some (settled_stringLiteral [] (by decide) false hAfter hAfter' ?_ hFits)
      exact Option.some.inj h
    · split at h
      · next hSingle hOther =>
        have hSign : c ∈ lexicalSigns := by
          rcases hOther with rfl | rfl <;> decide
        rw [if_neg hSingle, if_pos hOther]
        refine congrArg some (settled_delimitedIdentifier hSign hAfter hAfter' ?_ hFits)
        exact Option.some.inj h
      · cases h

/-- A line comment ends with the first newline. -/
theorem lineComment_of_newline {line rest : List Char} (hLine : '\n' ∉ line) :
    lineComment (line ++ '\n' :: rest) =
      .verbatim .comment ('-' :: '-' :: (line ++ ['\n'])) := by
  have hAll : ∀ c ∈ line, decide (c ≠ '\n') = true := by
    intro c hc
    exact decide_eq_true fun hEq => hLine (hEq ▸ hc)
  simp only [lineComment]
  rw [List.takeWhile_append_of_pos hAll]
  simp

/-- Without a newline the line comment is all that is left. -/
theorem lineComment_of_end {line : List Char} (hLine : '\n' ∉ line) :
    lineComment line = .verbatim .comment ('-' :: '-' :: line) := by
  have hAll : line.takeWhile (· ≠ '\n') = line := by
    rw [List.takeWhile_eq_self_iff]
    intro c hc
    exact decide_eq_true fun hEq => hLine (hEq ▸ hc)
  simp only [lineComment]
  rw [hAll]
  simp

/-- A line comment without its newline reaches beyond every seam that is no end. -/
theorem lineComment_source_length {line after : List Char} (hLine : '\n' ∉ line)
    (hAfter : after ≠ []) : line.length + 2 < (lineComment (line ++ after)).source.length := by
  by_cases hNewline : '\n' ∈ after
  · obtain ⟨more, rest, rfl, hMore⟩ := List.eq_append_cons_of_mem hNewline
    rw [← List.append_assoc, lineComment_of_newline (by simp [hLine, hMore])]
    simp [Lexeme.verbatim]
  · rw [lineComment_of_end (by simp [hLine, hNewline])]
    have hLength := List.length_pos_iff.mpr hAfter
    simp [Lexeme.verbatim]
    omega

/-- A line comment with a newline before the seam ends there. Without one it ends at the seam only
if the script does. -/
theorem lineComment_append_stops {line after after' : List Char}
    (hFits : (lineComment (line ++ after)).source.length ≤ line.length + 2)
    (hLoose : '\n' ∉ line → after.head? = after'.head?) :
    lineComment (line ++ after') = lineComment (line ++ after) := by
  by_cases hLine : '\n' ∈ line
  · obtain ⟨first, rest, rfl, hFirst⟩ := List.eq_append_cons_of_mem hLine
    rw [List.append_assoc, List.append_assoc, List.cons_append, List.cons_append,
      lineComment_of_newline hFirst, lineComment_of_newline hFirst]
  · have hEnd : after = [] := by
      by_contra hAfter
      exact absurd (lineComment_source_length hLine hAfter) (by omega)
    subst hEnd
    rw [List.head?_eq_none_iff.mp (hLoose hLine).symm]

/-- Comments open with two signs that are no stops. The block comment is settled, and the line
comment depends on what is behind it only if it is loose. -/
theorem local_comment : Local comment where
  silent := by
    intro c front after after' hAfter hAfter' h
    have hHyphen : '-' ∈ lexicalSigns := by decide
    have hStar : '*' ∈ lexicalSigns := by decide
    unfold comment
    split
    · next rest hRest =>
      obtain ⟨tail, rfl, -⟩ := append_of_cons_stops hRest hAfter' hHyphen
      cases h
    · next rest hRest =>
      obtain ⟨tail, rfl, -⟩ := append_of_cons_stops hRest hAfter' hStar
      cases h
    · rfl
  speaks := by
    intro c front after after' hAfter hAfter' lexeme h hFits hLoose
    have hHyphen : '-' ∈ lexicalSigns := by decide
    have hStar : '*' ∈ lexicalSigns := by decide
    obtain ⟨rest, rfl, hRest, rfl⟩ | ⟨rest, rfl, hRest, hBlock⟩ := comment_ok h
    · obtain ⟨tail, rfl, rfl⟩ := append_of_cons_stops hRest hAfter hHyphen
      -- Without a newline before the seam the comment is loose.
      have hSame : lineComment (tail ++ after') = lineComment (tail ++ after) := by
        refine lineComment_append_stops hFits fun hLine => hLoose ?_
        exact .inr (.inr (.inr (.inr ⟨tail, rfl, hLine⟩)))
      simp [comment, hSame]
    · obtain ⟨tail, rfl, rfl⟩ := append_of_cons_stops hRest hAfter hStar
      refine congrArg some (settled_blockComment hAfter hAfter' hBlock ?_)
      simpa using hFits

/-- Some signs at the start of a word take in the next character, unless it is a space. At the seam
they are loose, since that character is behind it. -/
theorem signLexeme_append_stops {signs front after after' : List Char} (hAfter : Stops after)
    (hAfter' : Stops after')
    (hFits : (signLexeme signs (front ++ after)).source.length ≤ front.length + signs.length)
    (hLoose : front = [] → after.head? = after'.head?) :
    signLexeme signs (front ++ after') = signLexeme signs (front ++ after) := by
  cases front with
  | cons c front =>
    simp only [List.cons_append, signLexeme]
    rw [wordLexeme_append_stops _ _ hAfter, wordLexeme_append_stops _ _ hAfter']
  | nil =>
    rw [List.nil_append] at hFits
    have hHead := hLoose rfl
    cases after with
    | nil => rw [List.head?_eq_none_iff.mp hHead.symm]
    | cons c rest =>
      obtain ⟨rest', rfl⟩ := List.head?_eq_some_iff.mp hHead.symm
      -- Only before a space do the signs leave the next character alone.
      by_cases hSpace : c = ' '
      · simp [signLexeme, hSpace]
      · simp only [signLexeme, hSpace, if_false, wordLexeme, Lexeme.verbatim, List.length_append,
          List.length_cons, List.length_nil] at hFits
        omega

/-- One sign opens a word unless a second one follows. -/
theorem sign_of_single {rest : List Char} (h : rest.head? ≠ some '@') :
    sign '@' rest = some (.ok (signLexeme ['@'] rest)) := by
  unfold sign
  split <;> simp_all

/-- Signs that open a word are one or two, and no stop is a sign. So they stand before the seam, and
only at its edge do they look behind it. -/
theorem local_sign : Local sign where
  silent _ _ h := speaksOf_sign.silent rfl h
  speaks := by
    intro c front after after' hAfter hAfter' lexeme h hFits hLoose
    have hAt : '@' ∈ lexicalSigns := by decide
    unfold sign at h
    split at h
    · next rest hRest =>
      obtain ⟨tail, rfl, rfl⟩ := append_of_cons_stops hRest hAfter hAt
      cases h
      have hSame := signLexeme_append_stops hAfter hAfter' hFits fun hNil =>
        hLoose (.inr (.inr (.inl (by simp [hNil]))))
      simp [sign, hSame]
    · next hOther =>
      cases h
      have hSame := signLexeme_append_stops hAfter hAfter' hFits fun hNil =>
        hLoose (.inr (.inl (by simp [hNil])))
      -- A second sign is no stop, so it would stand before the seam in both scripts.
      have hSingle : (front ++ after').head? ≠ some '@' := by
        intro hHead
        obtain ⟨rest, hRest⟩ := List.head?_eq_some_iff.mp hHead
        obtain ⟨tail, rfl, -⟩ := append_of_cons_stops hRest hAfter' hAt
        exact hOther (tail ++ after) rfl
      rw [sign_of_single hSingle, hSame]
    · cases h
      have hSame := signLexeme_append_stops hAfter hAfter' hFits fun hNil =>
        hLoose (.inr (.inr (.inr (.inl (by simp [hNil])))))
      simp [sign, hSame]
    · cases h

/-- A single dollar sign opens a quotation if a tag and another dollar sign follow. -/
theorem dollarLexeme_of_single {rest : List Char} (h : rest.head? ≠ some '$') :
    dollarLexeme rest =
      match rest.drop (rest.takeWhile isTagChar).length with
      | '$' :: text =>
        dollarLiteral ('$' :: rest.takeWhile isTagChar ++ ['$'])
          ((tagReader (rest.takeWhile isTagChar)).read .inside text)
      | _ => .ok (.verbatim .operator ('$' :: rest.takeWhile isTagChar)) := by
  unfold dollarLexeme
  split
  · exact absurd rfl h
  · rfl

/-- A dollar sign opens a quotation if a second one stands behind it or behind a tag. Neither the
tag nor the sign reaches beyond a stop. -/
theorem settled_dollarLexeme : Settled 1 dollarLexeme := by
  intro front after after' hAfter hAfter' lexeme h hFits
  have hDollar : '$' ∈ lexicalSigns := by decide
  by_cases hDouble : front.head? = some '$'
  · obtain ⟨tail, rfl⟩ := List.head?_eq_some_iff.mp hDouble
    have hLength : lexeme.source.length ≤ tail.length + 2 := by simpa using hFits
    exact settled_dollarLiteral sealed_dollarReader.quiet false ['$', '$'] hAfter hAfter' h hLength
  · have hSign : '$' ∈ lexicalSigns := by decide
    -- The tag does not reach beyond the seam, and the sign behind it is no stop.
    have hTag : front.takeWhile isTagChar <+: front := List.takeWhile_prefix _
    rw [dollarLexeme_of_single (mt (head?_append_stops hAfter hDollar).mp hDouble),
      takeWhile_append_stops (fun _ => not_isTagChar) _ hAfter, drop_append_of_prefix hTag] at h
    rw [dollarLexeme_of_single (mt (head?_append_stops hAfter' hDollar).mp hDouble),
      takeWhile_append_stops (fun _ => not_isTagChar) _ hAfter', drop_append_of_prefix hTag]
    split at h
    · next text hText =>
      obtain ⟨tail, hTail, rfl⟩ := append_of_cons_stops hText hAfter hDollar
      rw [hTail]
      have hLength : (front.takeWhile isTagChar).length + tail.length + 1 = front.length := by
        have hFront := List.length_drop (i := (front.takeWhile isTagChar).length) (l := front)
        have hLe := hTag.length_le
        rw [hTail, List.length_cons] at hFront
        omega
      refine settled_dollarLiteral (sealed_tagReader _).quiet _ _ hAfter hAfter' h ?_
      simp only [List.length_append, List.length_cons, List.length_nil]
      omega
    · next hNone =>
      split
      · next text hText =>
        obtain ⟨tail, hTail, -⟩ := append_of_cons_stops hText hAfter' hDollar
        exact (hNone (tail ++ after) (by rw [hTail]; rfl)).elim
      · exact h

/-- The rule for dollar signs is settled in this way. -/
theorem local_dollar : Local dollar where
  silent _ _ h := speaksOf_dollar.silent rfl h
  speaks := by
    intro c front after after' hAfter hAfter' lexeme h hFits _
    unfold dollar at h ⊢
    split at h
    · next hMark =>
      rw [if_pos hMark]
      exact congrArg some (settled_dollarLexeme hAfter hAfter' (Option.some.inj h) hFits)
    · cases h

/-- All rules are local. -/
theorem local_of_mem_all {rule : LexicalRule} (h : rule ∈ all) : Local rule := by
  simp only [all, List.mem_cons, List.not_mem_nil, or_false] at h
  rcases h with rfl | rfl | rfl | rfl | rfl | rfl | rfl | rfl | rfl | rfl | rfl
  · exact local_blank
  · exact local_lettered
  · exact local_quoted
  · exact local_number
  · exact local_comment
  · exact local_terminator
  · exact local_symbol
  · exact local_sign
  · exact local_placeholder
  · exact local_word
  · exact local_dollar

end LexicalRule

/-! ## All rules -/

/-- A lexeme that is read before a seam is read there in every script. -/
theorem readLexeme_append_stops {c : Char} {front after after' : List Char} (hAfter : Stops after)
    (hAfter' : Stops after') {lexeme : Lexeme} (h : readLexeme c (front ++ after) = .ok lexeme)
    (hFits : lexeme.source.length ≤ front.length + 1)
    (hLoose : Loose (c :: front) → after.head? = after'.head?) :
    readLexeme c (front ++ after') = .ok lexeme := by
  refine readLexeme_transfer ?_ ?_ id h
  · exact fun rule hMem => (LexicalRule.local_of_mem_all hMem).silent hAfter hAfter'
  · intro rule hMem hSaid
    exact (LexicalRule.local_of_mem_all hMem).speaks hAfter hAfter' hSaid hFits hLoose

/-- Lexemes before a seam are the same in every script that goes on with the same stop. -/
theorem lexes_append_stops {lexemes : List Lexeme} {after after' : List Char}
    (hAfter : Stops after) (hAfter' : Stops after') (hHead : after.head? = after'.head?)
    (h : Lexes lexemes after) : Lexes lexemes after' := by
  induction lexemes with
  | nil => trivial
  | cons lexeme rest ih =>
    obtain ⟨⟨c, taken, hSource, hRead⟩, hRest⟩ := h
    refine ⟨⟨c, taken, hSource, ?_⟩, ih hRest⟩
    rw [← List.append_assoc] at hRead ⊢
    refine readLexeme_append_stops hAfter hAfter' hRead ?_ fun _ => hHead
    rw [hSource, List.length_append, List.length_cons]
    omega

end SqlScript
