import SqlScript.Lexeme.Rule

/-!
# Characters that end what stands before them

A blank or a semicolon takes part in no word, number or operator, and closes no quotation. Reading
a lexeme therefore never depends on what comes after the first such character behind it.
`isStop` is the class of these characters; this module shows what they are not.

Blanks are a table of ranges, so that a fact about all of them is checked code point by code point
(`of_isStop`).
-/

namespace SqlScript

/-- Whether a character is a blank or a semicolon. -/
def isStop (c : Char) : Bool := c = ';' || isBlank c

/-- The characters are at an end or go on with a stop. -/
def Stops (chars : List Char) : Prop := ∀ c ∈ chars.head?, isStop c = true

theorem stops_nil : Stops [] := by
  intro c hc
  cases hc

theorem stops_cons {c : Char} {rest : List Char} : Stops (c :: rest) ↔ isStop c = true := by
  simp [Stops]

/-! ## Stops by code point -/

/-- A number in one of the ranges is one of the numbers that the ranges span. -/
theorem mem_span_of_inRanges {ranges : List (Nat × Nat)} {n : Nat} (h : inRanges ranges n = true) :
    n ∈ ranges.flatMap fun range => List.range' range.1 (range.2 + 1 - range.1) := by
  induction ranges with
  | nil => cases h
  | cons range rest ih =>
    obtain ⟨low, high⟩ := range
    rw [List.flatMap_cons, List.mem_append]
    rw [inRanges] at h
    split at h
    · cases h
    · split at h
      · refine .inl (List.mem_range'_1.mpr ⟨by omega, ?_⟩)
        dsimp only
        omega
      · exact .inr (ih h)

/-- The code points of the stops. -/
def stopCodes : List Nat :=
  ';'.toNat :: blankRanges.flatMap fun range => List.range' range.1 (range.2 + 1 - range.1)

/-- What holds of every code point of a stop holds of every stop. -/
theorem of_isStop {P : Char → Prop} (h : ∀ n ∈ stopCodes, P (Char.ofNat n)) {c : Char}
    (hStop : isStop c = true) : P c := by
  rw [← Char.ofNat_toNat c]
  refine h c.toNat ?_
  unfold isStop at hStop
  rcases Bool.or_eq_true_iff.mp hStop with hMark | hBlank
  · rw [decide_eq_true_eq] at hMark
    rw [hMark]
    exact List.mem_cons_self
  · exact List.mem_cons_of_mem _ (mem_span_of_inRanges hBlank)

theorem isStop_of_isBlank {c : Char} (h : isBlank c = true) : isStop c = true := by
  simp [isStop, h]

/-! ## What stops are not -/

/-- The delimiters and the signs that have a meaning for a lexeme beside its run of characters. -/
def lexicalSigns : List Char :=
  [singleQuote, doubleQuote, backquote, backslash, '.', '+', '-', '*', '/', '>', '&', '$', '@',
    '#', '_', '?', 'x', 'e', 'E', 'L']

section Classes

variable {c : Char} (h : isStop c = true)

include h

/-- A stop is none of the signs that a rule looks for. -/
theorem not_mem_lexicalSigns : c ∉ lexicalSigns :=
  of_isStop (P := fun c => c ∉ lexicalSigns) (by decide) h

/-- The table of alphabetic characters has no stop in it. -/
theorem not_isAlphabetic : isAlphabetic c = false :=
  of_isStop (P := fun c => isAlphabetic c = false) (by decide +kernel) h

/-- Nor has the table of numeric ones. -/
theorem not_isNumeric : isNumeric c = false :=
  of_isStop (P := fun c => isNumeric c = false) (by decide +kernel) h

theorem not_isDigit : c.isDigit = false :=
  of_isStop (P := fun c => c.isDigit = false) (by decide) h

theorem not_isHexDigit : isDigitOf 16 c = false :=
  of_isStop (P := fun c => isDigitOf 16 c = false) (by decide) h

/-- A word ends before a stop. -/
theorem not_isWordChar : isWordChar c = false := by
  have hSigns := not_mem_lexicalSigns h
  simp only [lexicalSigns, List.mem_cons, not_or] at hSigns
  simp [isWordChar, not_isAlphabetic h, not_isDigit h, hSigns]

/-- A tag ends before a stop. -/
theorem not_isTagChar : isTagChar c = false := by
  have hSigns := not_mem_lexicalSigns h
  simp only [lexicalSigns, List.mem_cons, not_or] at hSigns
  simp [isTagChar, not_isAlphabetic h, not_isNumeric h, hSigns]

end Classes

/-- No operator holds a stop. -/
theorem not_isStop_of_spelling {spelling : List Char} (h : spelling ∈ symbolSpellings) {c : Char}
    (hc : c ∈ spelling) : isStop c = false := by
  have hAll : (symbolSpellings.all fun spelling => spelling.all fun c => !isStop c) = true := by
    decide
  have hSpelling := List.all_eq_true.mp hAll spelling h
  simpa using List.all_eq_true.mp hSpelling c hc

/-- Stops do not start with a sign. -/
theorem Stops.head?_ne {chars : List Char} (h : Stops chars) {sign : Char}
    (hSign : sign ∈ lexicalSigns) : chars.head? ≠ some sign :=
  fun hHead => not_mem_lexicalSigns (h sign hHead) hSign

/-- As many characters as one likes of what starts with a stop still do. -/
theorem Stops.take {chars : List Char} (h : Stops chars) (n : Nat) : Stops (chars.take n) := by
  cases n with
  | zero => exact stops_nil
  | succ n =>
    cases chars with
    | nil => exact stops_nil
    | cons c rest => exact stops_cons.mpr (stops_cons.mp h)

/-- Behind some blanks there is a stop if there is one behind all of them. -/
theorem stops_of_blanks {blanks after : List Char} (h : ∀ c ∈ blanks, isBlank c = true)
    (hAfter : Stops after) : Stops (blanks ++ after) := by
  cases blanks with
  | nil => exact hAfter
  | cons c rest => exact stops_cons.mpr (isStop_of_isBlank (h c List.mem_cons_self))

/-- A sign that a script goes on with before a stop stands in front of the stop. -/
theorem append_of_cons_stops {sign : Char} {front after rest : List Char}
    (h : front ++ after = sign :: rest) (hAfter : Stops after) (hSign : sign ∈ lexicalSigns) :
    ∃ tail, front = sign :: tail ∧ rest = tail ++ after := by
  cases front with
  | nil =>
    rw [List.nil_append] at h
    exact absurd (by rw [h]; rfl) (hAfter.head?_ne hSign)
  | cons c front =>
    obtain ⟨rfl, hRest⟩ := List.cons.inj h
    exact ⟨front, rfl, hRest.symm⟩

/-- Signs in front of stops stand before them. -/
theorem append_of_append_stops {signs front after rest : List Char}
    (h : front ++ after = signs ++ rest) (hAfter : Stops after)
    (hSigns : ∀ c ∈ signs, c ∈ lexicalSigns) :
    ∃ tail, front = signs ++ tail ∧ rest = tail ++ after := by
  induction signs generalizing front with
  | nil => exact ⟨front, rfl, h.symm⟩
  | cons sign signs ih =>
    obtain ⟨front, rfl, hRest⟩ := append_of_cons_stops h hAfter (hSigns sign List.mem_cons_self)
    obtain ⟨tail, rfl, rfl⟩ := ih hRest.symm fun c hc => hSigns c (List.mem_cons_of_mem _ hc)
    exact ⟨tail, rfl, rfl⟩

/-! ## Runs of characters before a stop -/

/-- A run of characters of a class without stops does not reach into stops. -/
theorem takeWhile_append_stops {p : Char → Bool} (hp : ∀ c, isStop c = true → p c = false)
    (chars : List Char) {after : List Char} (hAfter : Stops after) :
    (chars ++ after).takeWhile p = chars.takeWhile p := by
  rw [List.takeWhile_append]
  split
  · next hAll =>
    have hNone : after.takeWhile p = [] := by
      cases after with
      | nil => rfl
      | cons c rest => rw [List.takeWhile_cons, hp c (stops_cons.mp hAfter)]; rfl
    rw [hNone, List.append_nil]
    exact ((List.takeWhile_prefix p).eq_of_length hAll).symm
  · rfl

/-- What follows a part of some characters is what follows it in them, and then the rest. -/
theorem drop_append_of_prefix {part chars : List Char} (h : part <+: chars) (after : List Char) :
    (chars ++ after).drop part.length = chars.drop part.length ++ after :=
  List.drop_append_of_le_length h.length_le

/-- Stops behind some characters do not make them start with a sign. -/
theorem head?_append_stops {chars after : List Char} (hAfter : Stops after) {sign : Char}
    (hSign : sign ∈ lexicalSigns) :
    (chars ++ after).head? = some sign ↔ chars.head? = some sign := by
  cases chars with
  | nil => simpa using hAfter.head?_ne hSign
  | cons c rest => rfl

end SqlScript
