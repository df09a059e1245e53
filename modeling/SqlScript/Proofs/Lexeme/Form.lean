import SqlScript.Proofs.Lexeme.Source

/-!
# Readers and what comes behind them

A reader looks at most one character beyond those that it takes, and only to see whether it has to
stop. So two texts can stand for each other behind a lexeme if the reader stops before both of them
in the same states: it then `Carries` over from one to the other.

The forms of literals and comments wrap a reader up. For each of them this module says what they
make of a text that is exchanged behind a lexeme; the arguments about particular texts — stops, and
letters in another case — only have to show that the readers carry over. Most rules speak of certain
first characters whatever comes behind them (`LexicalRule.SpeaksOf`).

## Results

* `Reader.read_append` — a reader that carries over takes the same characters.
* `continues_quotedLiteral`, `continues_delimitedIdentifier`, `continues_blockComment` and
  `continues_dollarLiteral` — the same for the forms.
* `readLexeme_transfer` — two texts start with corresponding lexemes if the rules say so one by one.
-/

namespace SqlScript

/-! ## Readers -/

namespace Reader

variable {σ : Type} {reader : Reader σ}

/-- In the state the reader stops before the text: at the end of the script, or by leaving the next
character. -/
def EndsAt (reader : Reader σ) (state : σ) : List Char → Prop
  | [] => reader.atEnd state = none
  | c :: _ => reader.step state c = .leave

/-- Where the reader stops before the first text it stops before the second one too. -/
def Carries (reader : Reader σ) (after after' : List Char) : Prop :=
  ∀ state, reader.EndsAt state after → reader.EndsAt state after'

/-- A reader that takes nothing of a text stops before it. -/
theorem endsAt_of_read {state : σ} {after : List Char} {body : Body}
    (h : reader.read state after = .ok body) (hNil : body.source = []) :
    reader.EndsAt state after ∧ body = ⟨[], []⟩ := by
  cases after with
  | nil =>
    rw [read_nil] at h
    split at h
    · next hNone => exact ⟨hNone, (Except.ok.inj h).symm⟩
    · cases h
  | cons c rest =>
    obtain ⟨next, text, more, -, -, rfl⟩ | ⟨-, rfl⟩ | ⟨hLeave, rfl⟩ := read_cons_ok h
    · -- A reader that takes a character or finishes has taken something.
      cases hNil
    · cases hNil
    · exact ⟨hLeave, rfl⟩

/-- A reader that stops before a text takes nothing of it. -/
theorem read_of_endsAt {state : σ} {after : List Char} (h : reader.EndsAt state after) :
    reader.read state after = .ok ⟨[], []⟩ := by
  cases after with
  | nil =>
    have hNone : reader.atEnd state = none := h
    rw [read_nil, hNone]
  | cons c rest =>
    have hLeave : reader.step state c = .leave := h
    rw [read_cons, hLeave]

/-- What a reader takes in front of a text it takes in front of each text that it carries over
to. -/
theorem read_append {after after' : List Char} (hCarries : reader.Carries after after')
    {front : List Char} {state : σ} {body : Body}
    (h : reader.read state (front ++ after) = .ok body)
    (hFits : body.source.length ≤ front.length) :
    reader.read state (front ++ after') = .ok body := by
  -- By induction on the characters in front: the reader takes the same steps over them.
  induction front generalizing state body with
  | nil =>
    have hNil : body.source = [] := List.length_eq_zero_iff.mp (Nat.le_zero.mp hFits)
    obtain ⟨hEnds, rfl⟩ := endsAt_of_read h hNil
    exact read_of_endsAt (hCarries state hEnds)
  | cons c front ih =>
    rw [List.cons_append] at h ⊢
    obtain ⟨next, text, more, hStep, hMore, rfl⟩ | ⟨hStep, rfl⟩ | ⟨hStep, rfl⟩ := read_cons_ok h
    · have hShorter : more.source.length ≤ front.length := by
        simpa using hFits
      rw [read_cons, hStep]
      simp only
      rw [ih hMore hShorter]
    · rw [read_cons, hStep]
    · rw [read_cons, hStep]

end Reader

/-! ## Forms -/

/-- A lexeme of the form, made of the opening characters and some more in front of the first text,
is the same in front of the second one. -/
def Continues (opening : Nat) (form : List Char → Except Fault Lexeme) (after after' : List Char) :
    Prop :=
  ∀ {front : List Char} {lexeme : Lexeme}, form (front ++ after) = .ok lexeme →
    lexeme.source.length ≤ front.length + opening → form (front ++ after') = .ok lexeme

section Forms

variable {σ : Type} {reader : Reader σ} {after after' : List Char}

/-- A literal goes on in front of the second text as its reader does. -/
theorem continues_quotedLiteral (hCarries : reader.Carries after after') (state : σ)
    (kind : LexemeKind) (letters : List Char) (delimiter : Char)
    (place : List Char → List Char) :
    Continues (letters.length + 1)
      (fun rest => quotedLiteral kind letters delimiter place (reader.read state rest))
      after after' := by
  intro front lexeme h hFits
  obtain ⟨body, hBody, -, hSource⟩ := quotedLiteral_ok h
  -- The body is the lexeme without its opening.
  have hShorter : body.source.length ≤ front.length := by
    rw [hSource, List.length_append, List.length_cons] at hFits
    omega
  dsimp only at h ⊢
  rw [Reader.read_append hCarries hBody hShorter, ← hBody]
  exact h

/-- So does a delimited identifier. -/
theorem continues_delimitedIdentifier {delimiter : Char}
    (hCarries : (quotedReader delimiter false (.openIdentifier delimiter)).Carries after after') :
    Continues 1 (delimitedIdentifier delimiter) after after' := by
  intro front lexeme h hFits
  obtain ⟨body, hBody, rfl⟩ := delimitedIdentifier_ok h
  have hShorter : body.source.length ≤ front.length := by simpa using hFits
  unfold delimitedIdentifier
  rw [Reader.read_append hCarries hBody hShorter]

/-- So does a block comment, whose reader counts the comments inside. -/
theorem continues_blockComment (hCarries : blockCommentReader.Carries after after') :
    Continues 2 blockComment after after' := by
  intro front lexeme h hFits
  obtain ⟨body, hBody, rfl⟩ := blockComment_ok h
  have hShorter : body.source.length ≤ front.length := by simpa [Lexeme.verbatim] using hFits
  unfold blockComment
  rw [Reader.read_append hCarries hBody hShorter]

/-- So does a quotation between dollar signs, whatever its opening is. -/
theorem continues_dollarLiteral (hCarries : reader.Carries after after') (state : σ)
    (opening : List Char) :
    Continues opening.length (fun rest => dollarLiteral opening (reader.read state rest))
      after after' := by
  intro front lexeme h hFits
  obtain ⟨body, hBody, rfl⟩ := dollarLiteral_ok h
  have hShorter : body.source.length ≤ front.length := by
    simp only [Lexeme.verbatim, List.length_append] at hFits
    omega
  dsimp only
  rw [Reader.read_append hCarries hBody hShorter]
  rfl

end Forms

/-! ## Rules that go by the first character -/

/-- The rule speaks of the first characters of a class, whatever follows them. -/
def LexicalRule.SpeaksOf (p : Char → Bool) (rule : LexicalRule) : Prop :=
  ∀ c rest, rule c rest = none ↔ p c = false

namespace LexicalRule

/-- Such a rule is silent on all texts that start with characters of the same class. -/
theorem SpeaksOf.silent {p : Char → Bool} {rule : LexicalRule} (h : rule.SpeaksOf p) {c c' : Char}
    {rest rest' : List Char} (hClass : p c = p c') (hNone : rule c rest = none) :
    rule c' rest' = none := by
  rw [h, hClass] at hNone
  rwa [h]

/-- What such a rule speaks of starts with a character of the class. -/
theorem SpeaksOf.opens {p : Char → Bool} {rule : LexicalRule} (h : rule.SpeaksOf p) {c : Char}
    {rest : List Char} {result : Except Fault Lexeme} (hSaid : rule c rest = some result) :
    p c = true := by
  by_contra hOther
  rw [(h c rest).mpr (Bool.not_eq_true _ ▸ hOther)] at hSaid
  cases hSaid

/-- The rule for blanks speaks of all blanks. Three of them are looked at first, as they are shown
in another way. -/
theorem speaksOf_blank : blank.SpeaksOf isBlank := by
  intro c rest
  constructor
  · intro hNone
    unfold blank at hNone
    repeat' split at hNone
    all_goals simp_all
  · intro hBlank
    -- The blanks with a rule of their own are blanks like the others.
    have hNe : ∀ {d : Char}, isBlank d = true → c ≠ d := by
      rintro d hd rfl
      rw [hd] at hBlank
      cases hBlank
    rw [blank, if_neg (hNe rfl), if_neg (hNe rfl), if_neg (hNe rfl), hBlank]
    rfl

/-- Quotes open literals and identifiers, whatever stands behind them. -/
theorem speaksOf_quoted :
    quoted.SpeaksOf fun c => c = singleQuote || c = doubleQuote || c = backquote := by
  intro c rest
  unfold quoted
  split <;> simp_all

/-- A period is spoken of by the rule for numbers, even if no digit follows. -/
theorem speaksOf_number : number.SpeaksOf fun c => c.isDigit || c = '.' := by
  intro c rest
  unfold number
  split
  · next hFirst => simpa [or_iff_not_imp_left] using hFirst
  · next hFirst => simpa using hFirst

theorem speaksOf_terminator : terminator.SpeaksOf fun c => c = ';' := by
  intro c rest
  unfold terminator
  split <;> simp_all

/-- Either sign opens a word, whatever stands behind it. -/
theorem speaksOf_sign : sign.SpeaksOf fun c => c = '@' || c = '#' := by
  intro c rest
  unfold sign
  split <;> simp_all

theorem speaksOf_placeholder : placeholder.SpeaksOf fun c => c = '?' := by
  intro c rest
  unfold placeholder
  split <;> simp_all

/-- A word is recognized by its first character. -/
theorem speaksOf_word : word.SpeaksOf isWordStart := by
  intro c rest
  unfold word
  split <;> simp_all

theorem speaksOf_dollar : dollar.SpeaksOf fun c => c = '$' := by
  intro c rest
  unfold dollar
  split <;> simp_all

end LexicalRule

/-! ## All rules -/

/-- Rules that are asked in order about two texts decide alike if each of them does. -/
theorem LexicalRule.findSome?_transfer {rules : List LexicalRule} {c c' : Char}
    {rest rest' : List Char} {lexeme lexeme' : Lexeme}
    (hSilent : ∀ rule ∈ rules, rule c rest = none → rule c' rest' = none)
    (hSpeaks : ∀ rule ∈ rules, rule c rest = some (.ok lexeme) → rule c' rest' = some (.ok lexeme'))
    (h : rules.findSome? (fun rule => rule c rest) = some (.ok lexeme)) :
    rules.findSome? (fun rule => rule c' rest') = some (.ok lexeme') := by
  induction rules with
  | nil => cases h
  | cons rule rest ih =>
    rw [List.findSome?_cons] at h ⊢
    -- A silent rule stays silent, and the first one that speaks says what is found.
    cases hSaid : rule c _ with
    | none =>
      rw [hSaid] at h
      rw [hSilent rule List.mem_cons_self hSaid]
      exact ih (fun other hMem => hSilent other (List.mem_cons_of_mem _ hMem))
        (fun other hMem => hSpeaks other (List.mem_cons_of_mem _ hMem)) h
    | some result =>
      rw [hSaid] at h
      cases h
      rw [hSpeaks rule List.mem_cons_self hSaid]

/-- So two texts start with corresponding lexemes if each rule says the corresponding of them. -/
theorem readLexeme_transfer {c c' : Char} {rest rest' : List Char} {lexeme lexeme' : Lexeme}
    (hSilent : ∀ rule ∈ LexicalRule.all, rule c rest = none → rule c' rest' = none)
    (hSpeaks : ∀ rule ∈ LexicalRule.all, rule c rest = some (.ok lexeme) →
      rule c' rest' = some (.ok lexeme'))
    (hOperator : lexeme = .verbatim .operator [c] → lexeme' = .verbatim .operator [c'])
    (h : readLexeme c rest = .ok lexeme) : readLexeme c' rest' = .ok lexeme' := by
  unfold readLexeme at h ⊢
  cases hFind : LexicalRule.all.findSome? fun rule => rule c rest with
  | some result =>
    rw [hFind] at h
    cases h
    rw [LexicalRule.findSome?_transfer hSilent hSpeaks hFind]
    rfl
  | none =>
    rw [hFind] at h
    cases h
    -- The character is an operator as all rules are silent.
    have hNone : LexicalRule.all.findSome? (fun rule => rule c' rest') = none := by
      rw [List.findSome?_eq_none_iff] at hFind ⊢
      exact fun rule hMem => hSilent rule hMem (hFind rule hMem)
    rw [hNone, hOperator rfl]
    rfl

end SqlScript
