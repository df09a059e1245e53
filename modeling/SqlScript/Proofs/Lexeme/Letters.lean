import Mathlib.Data.List.TakeWhile
import SqlScript.Lexeme.Rule
import SqlScript.Text
import SqlScript.Position

/-!
# Texts with the same letters

Two texts have the same letters if they differ in the case of the letters `a` to `z` only. Most of
what is asked of the characters of a script does not depend on letter case (`CaseBlind`), and a
character that is no letter has no other case at all (`eq_of_toUpper_eq`). So runs of characters of
a class are as long in both texts, and start with the same signs.

## Results

* `takeWhile_sameLetters` — runs of a case-blind class have the same letters.
* `takeWhile_append_run`  — a run that ends where a text is exchanged for one with the same letters
  still ends there.
-/

namespace SqlScript

/-! ## Letter case of characters -/

/-- The letters that have an upper case. -/
def smallLetters : List Char := (List.range 26).map fun n => Char.ofNat ('a'.toNat + n)

theorem mem_smallLetters {c : Char} (hFirst : 'a'.toNat ≤ c.toNat) (hLast : c.toNat ≤ 'z'.toNat) :
    c ∈ smallLetters := by
  have hEnd : 'z'.toNat < 'a'.toNat + 26 := by decide
  refine List.mem_map.mpr ⟨c.toNat - 'a'.toNat, List.mem_range.mpr (by omega), ?_⟩
  rw [Nat.add_sub_cancel' hFirst, Char.ofNat_toNat]

/-- Only the letters `a` to `z` have an upper case of their own. -/
theorem toUpper_eq_self_or (c : Char) : c.toUpper = c ∨ c ∈ smallLetters := by
  by_cases hLower : 'a' ≤ c ∧ c ≤ 'z'
  · right
    have hFirst : 'a'.toNat ≤ c.toNat := hLower.1
    have hLast : c.toNat ≤ 'z'.toNat := hLower.2
    exact mem_smallLetters hFirst hLast
  · left
    exact dif_neg hLower

/-- The class of a character does not depend on letter case. -/
def CaseBlind {α : Type} (p : Char → α) : Prop := ∀ c : Char, p c.toUpper = p c

/-- A character that is its own upper case has nothing to be checked. -/
theorem caseBlind_of_forall {α : Type} {p : Char → α}
    (h : ∀ c ∈ smallLetters, p c.toUpper = p c) : CaseBlind p := by
  intro c
  rcases toUpper_eq_self_or c with hSame | hSmall
  · rw [hSame]
  · exact h c hSmall

/-- Only the letters have to be looked at. -/
theorem caseBlind_of_letters {α : Type} [DecidableEq α] {p : Char → α}
    (h : (smallLetters.all fun c => p c.toUpper = p c) = true) : CaseBlind p :=
  caseBlind_of_forall fun c hSmall => of_decide_eq_true (List.all_eq_true.mp h c hSmall)

/-- Characters that differ in case only are of the same class. -/
theorem CaseBlind.eq {α : Type} {p : Char → α} (hp : CaseBlind p) {c d : Char}
    (h : c.toUpper = d.toUpper) : p c = p d := by
  rw [← hp c, ← hp d, h]

theorem toUpper_toUpper : CaseBlind Char.toUpper := caseBlind_of_letters (by decide)

/-- What is in upper case stays as it is. -/
@[simp] theorem upper_upper (text : String) : upper (upper text) = upper text := by
  rw [← String.toList_inj, toList_upper, toList_upper, List.map_map]
  exact List.map_congr_left fun c _ => toUpper_toUpper c

theorem caseBlind_isAlpha : CaseBlind Char.isAlpha := caseBlind_of_letters (by decide)

theorem isAlpha_of_mem_smallLetters {c : Char} (h : c ∈ smallLetters) : c.isAlpha = true := by
  have hAll : smallLetters.all Char.isAlpha = true := by decide
  exact List.all_eq_true.mp hAll c h

/-- Being a certain sign does not depend on letter case. -/
theorem caseBlind_eq {sign : Char} (hSign : sign.isAlpha = false) :
    CaseBlind fun c => decide (c = sign) :=
  caseBlind_of_forall fun c hSmall => by
    -- A letter is not the sign in either case.
    have hLower : c.isAlpha = true := isAlpha_of_mem_smallLetters hSmall
    have hUpper : c.toUpper.isAlpha = true := (caseBlind_isAlpha c).trans hLower
    have hNe : c ≠ sign := by
      rintro rfl
      rw [hLower] at hSign
      cases hSign
    have hNe' : c.toUpper ≠ sign := by
      rintro rfl
      rw [hUpper] at hSign
      cases hSign
    rw [decide_eq_false hNe, decide_eq_false hNe']

theorem caseBlind_isDigit : CaseBlind Char.isDigit := caseBlind_of_letters (by decide)

theorem caseBlind_isHexDigit : CaseBlind (isDigitOf 16) := caseBlind_of_letters (by decide)

theorem caseBlind_isBlank : CaseBlind isBlank := caseBlind_of_letters (by decide)

theorem caseBlind_isNumeric : CaseBlind isNumeric := caseBlind_of_letters (by decide +kernel)

/-- Letters start a word in either case. -/
theorem caseBlind_isWordStart : CaseBlind isWordStart := caseBlind_of_letters (by decide +kernel)

/-- Letters go on with a word in either case. -/
theorem caseBlind_isWordChar : CaseBlind isWordChar := caseBlind_of_letters (by decide +kernel)

theorem caseBlind_isTagChar : CaseBlind isTagChar := caseBlind_of_letters (by decide +kernel)

/-- A letter has the upper case of a small one. -/
theorem exists_smallLetter {c : Char} (h : c.isAlpha = true) :
    ∃ d ∈ smallLetters, d.toUpper = c.toUpper := by
  rcases Bool.or_eq_true_iff.mp h with hUpper | hLower
  · obtain ⟨hFirst, hLast⟩ : 'A'.toNat ≤ c.toNat ∧ c.toNat ≤ 'Z'.toNat :=
      of_decide_eq_true hUpper
    -- Capital letters come in the order of the small ones.
    have hAll : ((List.range 26).all fun n =>
        smallLetters.any fun d => d.toUpper = Char.ofNat ('A'.toNat + n)) = true := by decide
    have hEnd : 'Z'.toNat < 'A'.toNat + 26 := by decide
    have hSome := List.all_eq_true.mp hAll (c.toNat - 'A'.toNat) (List.mem_range.mpr (by omega))
    rw [Nat.add_sub_cancel' hFirst, Char.ofNat_toNat] at hSome
    obtain ⟨d, hSmall, hCase⟩ := List.any_eq_true.mp hSome
    exact ⟨d, hSmall, by rw [← of_decide_eq_true hCase, toUpper_toUpper]⟩
  · obtain ⟨hFirst, hLast⟩ := Bool.and_eq_true_iff.mp hLower
    exact ⟨c, mem_smallLetters (of_decide_eq_true hFirst) (of_decide_eq_true hLast), rfl⟩

/-- A character that is no letter is the only one with its upper case. -/
theorem eq_of_toUpper_eq {c sign : Char} (hSign : sign.isAlpha = false)
    (h : c.toUpper = sign.toUpper) : c = sign := by
  -- Neither character is a letter, and such characters are their own upper case.
  have hSelf : ∀ d : Char, d.isAlpha = false → d.toUpper = d := by
    intro d hd
    refine (toUpper_eq_self_or d).resolve_right fun hSmall => ?_
    rw [isAlpha_of_mem_smallLetters hSmall] at hd
    cases hd
  have hOther : c.isAlpha = false := (caseBlind_isAlpha.eq h).trans hSign
  rw [← hSelf c hOther, h, hSelf sign hSign]

/-! ## Texts with the same letters -/

/-- The texts are the same but for the case of the letters `a` to `z`. -/
def SameLetters (first second : List Char) : Prop :=
  first.map Char.toUpper = second.map Char.toUpper

namespace SameLetters

variable {first second : List Char}

theorem refl (chars : List Char) : SameLetters chars chars := rfl

theorem symm (h : SameLetters first second) : SameLetters second first := Eq.symm h

/-- Letter case has no effect on the number of characters. -/
theorem length_eq (h : SameLetters first second) : first.length = second.length := by
  have hLength := congrArg List.length h
  rwa [List.length_map, List.length_map] at hLength

theorem reverse (h : SameLetters first second) : SameLetters first.reverse second.reverse := by
  unfold SameLetters at *
  rw [List.map_reverse, List.map_reverse, h]

/-- Texts with the same letters can be put behind each other. -/
theorem append {front front' : List Char} (hFront : SameLetters front front')
    (h : SameLetters first second) : SameLetters (front ++ first) (front' ++ second) := by
  unfold SameLetters at *
  rw [List.map_append, List.map_append, hFront, h]

theorem cons {c d : Char} (hHead : c.toUpper = d.toUpper) (h : SameLetters first second) :
    SameLetters (c :: first) (d :: second) := by
  unfold SameLetters at *
  rw [List.map_cons, List.map_cons, hHead, h]

/-- What comes after the first characters has the same letters in both texts. -/
theorem drop (h : SameLetters first second) (n : Nat) :
    SameLetters (first.drop n) (second.drop n) := by
  unfold SameLetters at *
  rw [List.map_drop, List.map_drop, h]

/-- The first characters of both texts have the same letters. -/
theorem take (h : SameLetters first second) (n : Nat) :
    SameLetters (first.take n) (second.take n) := by
  unfold SameLetters at *
  rw [List.map_take, List.map_take, h]

/-- What a text starts with has the letters of as many characters of the other text. -/
theorem take_left {front back : List Char} (h : SameLetters (front ++ back) second) :
    SameLetters front (second.take front.length) := by
  have hTake := h.take front.length
  rwa [List.take_left] at hTake

/-- What a text ends with has the letters of what the other text ends with. -/
theorem drop_left {front back : List Char} (h : SameLetters (front ++ back) second) :
    SameLetters back (second.drop front.length) := by
  have hDrop := h.drop front.length
  rwa [List.drop_left] at hDrop

/-- Two texts with the same letters end or go on with the same letter. -/
theorem cases_cons {c : Char} (h : SameLetters (c :: first) second) :
    ∃ d rest, second = d :: rest ∧ c.toUpper = d.toUpper ∧ SameLetters first rest := by
  cases second with
  | nil => cases h
  | cons d rest =>
    obtain ⟨hHead, hRest⟩ := List.cons.inj h
    exact ⟨d, rest, rfl, hHead, hRest⟩

/-- Only the empty text has no letters and no signs. -/
theorem eq_nil (h : SameLetters [] second) : second = [] :=
  List.length_eq_zero_iff.mp h.length_eq.symm

/-- A sign that the first text starts with is what the second one starts with. -/
theorem cons_sign {sign : Char} (hSign : sign.isAlpha = false)
    (h : SameLetters (sign :: first) second) :
    ∃ rest, second = sign :: rest ∧ SameLetters first rest := by
  obtain ⟨d, rest, rfl, hHead, hRest⟩ := h.cases_cons
  rw [eq_of_toUpper_eq hSign hHead.symm]
  exact ⟨rest, rfl, hRest⟩

/-- A sign stands at the start of both texts or of neither. -/
theorem head?_sign {sign : Char} (hSign : sign.isAlpha = false) (h : SameLetters first second) :
    first.head? = some sign ↔ second.head? = some sign := by
  -- One direction is enough, as the texts can be exchanged.
  have hOne : ∀ {first second : List Char}, SameLetters first second →
      first.head? = some sign → second.head? = some sign := by
    intro first second hSame hHead
    obtain ⟨rest, rfl⟩ := List.head?_eq_some_iff.mp hHead
    obtain ⟨rest', rfl, -⟩ := hSame.cons_sign hSign
    rfl
  exact ⟨hOne h, hOne h.symm⟩

/-- Signs that the first text starts with are what the second one starts with. -/
theorem append_signs {signs : List Char} (hSigns : ∀ sign ∈ signs, sign.isAlpha = false)
    (h : SameLetters (signs ++ first) second) :
    ∃ rest, second = signs ++ rest ∧ SameLetters first rest := by
  -- The signs are taken off one by one.
  induction signs generalizing second with
  | nil => exact ⟨second, rfl, h⟩
  | cons sign signs ih =>
    obtain ⟨rest, rfl, hRest⟩ := h.cons_sign (hSigns sign List.mem_cons_self)
    have hOthers : ∀ other ∈ signs, other.isAlpha = false :=
      fun other hOther => hSigns other (List.mem_cons_of_mem _ hOther)
    obtain ⟨more, rfl, hMore⟩ := ih hOthers hRest
    exact ⟨more, rfl, hMore⟩

/-- A text without letters is the only one with its letters. -/
theorem eq_of_signs (h : SameLetters first second) (hSigns : ∀ c ∈ first, c.isAlpha = false) :
    first = second := by
  rw [← List.append_nil first] at h
  obtain ⟨rest, rfl, hRest⟩ := h.append_signs hSigns
  rw [hRest.eq_nil, List.append_nil]

/-- The texts lead to the same position. -/
theorem advanceBy_eq (h : SameLetters first second) (position : Position) :
    position.advanceBy first = position.advanceBy second := by
  induction first generalizing second position with
  | nil => rw [h.eq_nil]
  | cons c rest ih =>
    obtain ⟨d, others, rfl, hHead, hRest⟩ := h.cases_cons
    -- Only newlines matter to a position, and those are no letters.
    have hStep : position.advance c = position.advance d := by
      have hNewline : c = '\n' ↔ d = '\n' :=
        ⟨fun hc => eq_of_toUpper_eq (by decide) (by rw [← hHead, hc]),
          fun hd => eq_of_toUpper_eq (by decide) (by rw [hHead, hd])⟩
      unfold Position.advance
      simp only [hNewline]
    rw [Position.advanceBy_cons, Position.advanceBy_cons, hStep]
    exact ih hRest _

end SameLetters

/-! ## Runs -/

section Runs

variable {p : Char → Bool} {first second : List Char}

/-- Runs of a case-blind class have the same letters. -/
theorem takeWhile_sameLetters (hp : CaseBlind p) (h : SameLetters first second) :
    SameLetters (first.takeWhile p) (second.takeWhile p) := by
  have hRun : ∀ chars : List Char,
      (chars.takeWhile p).map Char.toUpper = (chars.map Char.toUpper).takeWhile p := by
    intro chars
    have hSame : p ∘ Char.toUpper = p := funext hp
    rw [List.takeWhile_map, hSame]
  unfold SameLetters at *
  rw [hRun, hRun, h]

/-- Behind runs of a case-blind class both texts go on with the same letters. -/
theorem dropWhile_sameLetters (hp : CaseBlind p) (h : SameLetters first second) :
    SameLetters (first.dropWhile p) (second.dropWhile p) := by
  have hRest : ∀ chars : List Char,
      (chars.dropWhile p).map Char.toUpper = (chars.map Char.toUpper).dropWhile p := by
    intro chars
    have hSame : p ∘ Char.toUpper = p := funext hp
    rw [List.dropWhile_map, hSame]
  unfold SameLetters at *
  rw [hRest, hRest, h]

/-- What is left of texts without blank ends. -/
theorem SameLetters.trimChars (h : SameLetters first second) :
    SameLetters (trimChars first) (trimChars second) :=
  (dropWhile_sameLetters caseBlind_isBlank
    (dropWhile_sameLetters caseBlind_isBlank h).reverse).reverse

/-- Runs of signs are equal. -/
theorem takeWhile_eq_of_signs (hp : CaseBlind p) (hSigns : ∀ c, p c = true → c.isAlpha = false)
    (h : SameLetters first second) : first.takeWhile p = second.takeWhile p :=
  (takeWhile_sameLetters hp h).eq_of_signs fun c hc => hSigns c (List.mem_takeWhile_imp hc)

/-- A run that ends before a text ends before each text with the same letters. -/
theorem takeWhile_append_run (hp : CaseBlind p) {front front' after after' : List Char}
    (hFront : SameLetters front front') (hAfter : SameLetters after after')
    (h : (front ++ after).takeWhile p = front) : (front' ++ after').takeWhile p = front' := by
  have hSame := takeWhile_sameLetters hp (hFront.append hAfter)
  rw [h] at hSame
  -- The run is as long as the front, and both are what the text starts with.
  have hRun : (front' ++ after').takeWhile p <+: front' ++ after' := List.takeWhile_prefix p
  have hLength : ((front' ++ after').takeWhile p).length = front'.length := by
    rw [← hSame.length_eq, hFront.length_eq]
  rw [List.prefix_iff_eq_take.mp hRun, hLength, List.take_left]

end Runs

end SqlScript
