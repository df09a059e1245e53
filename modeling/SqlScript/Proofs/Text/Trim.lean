import Mathlib.Data.List.DropRight
import SqlScript.Text

/-!
# Blank ends

Names and statements are trimmed: the blanks at both ends are dropped. What is left has no blank at
either end (`Trimmed`), unless nothing is left, and stands together in the text. Since only blanks
are dropped, and all there are, it does not depend on the blanks around a text (`IsPadded`).

## Results

* `trimmed_trimChars`      — what trimming leaves needs no trimming.
* `isPadded_trimChars`     — trimming drops nothing but blanks.
* `IsPadded.trimChars_eq`  — blanks around a text make no difference to what is left of it.
-/

namespace SqlScript

/-- The characters have no blank at either end, and there are some. -/
structure Trimmed (chars : List Char) : Prop where
  ne_nil : chars ≠ []
  head : ∀ c ∈ chars.head?, isBlank c = false
  last : ∀ c ∈ chars.getLast?, isBlank c = false

/-- The characters are a text with blanks around it. -/
def IsPadded (chars text : List Char) : Prop :=
  ∃ front back, chars = front ++ text ++ back ∧
    (∀ c ∈ front, isBlank c = true) ∧ ∀ c ∈ back, isBlank c = true

theorem trimChars_eq (chars : List Char) :
    trimChars chars = (chars.dropWhile isBlank).rdropWhile isBlank := rfl

/-! ## What is left -/

/-- Characters that start without a blank are what trimming leaves of them, and then blanks. -/
theorem trimChars_of_head {c : Char} (rest : List Char) (h : isBlank c = false) :
    Trimmed (trimChars (c :: rest)) ∧
      ∃ trail, c :: rest = trimChars (c :: rest) ++ trail ∧ ∀ d ∈ trail, isBlank d = true := by
  have hTrim : trimChars (c :: rest) = (c :: rest).rdropWhile isBlank := by
    rw [trimChars_eq, List.dropWhile_cons_of_neg (by simp [h])]
  have hSplit : (c :: rest).rdropWhile isBlank ++ (c :: rest).rtakeWhile isBlank = c :: rest :=
    List.rdropWhile_append_rtakeWhile ..
  have hNil : (c :: rest).rdropWhile isBlank ≠ [] := by
    intro hNil
    have hAll := List.rdropWhile_eq_nil_iff.mp hNil c List.mem_cons_self
    rw [h] at hAll
    cases hAll
  rw [hTrim]
  refine ⟨⟨hNil, ?_, ?_⟩, _, hSplit.symm, fun d hd => List.mem_rtakeWhile_imp hd⟩
  · intro d hd
    have hPrefix := List.rdropWhile_prefix isBlank (l := c :: rest)
    obtain ⟨tail, hTail⟩ := List.head?_eq_some_iff.mp hd
    rw [hTail, List.cons_prefix_cons] at hPrefix
    rw [hPrefix.1]
    exact h
  · intro d hd
    obtain ⟨hNe, rfl⟩ := List.mem_getLast?_eq_getLast hd
    have hLast := List.rdropWhile_last_not isBlank (c :: rest) hNe
    simpa using hLast

/-- Whatever trimming leaves needs no trimming. -/
theorem trimmed_trimChars {chars : List Char} (h : trimChars chars ≠ []) :
    Trimmed (trimChars chars) := by
  rw [trimChars_eq] at h ⊢
  cases hDrop : chars.dropWhile isBlank with
  | nil =>
    rw [hDrop] at h
    exact absurd (List.rdropWhile_nil _) h
  | cons c rest =>
    -- The first character that is left is no blank, so nothing more is dropped in front of it.
    have hHead := List.head?_dropWhile_not isBlank chars
    rw [hDrop] at hHead
    have hBlank : isBlank c = false := hHead
    have hTrimmed := (trimChars_of_head rest hBlank).1
    rw [trimChars_eq, List.dropWhile_cons_of_neg (by simp [hBlank])] at hTrimmed
    exact hTrimmed

/-! ## What is dropped -/

/-- Trimming drops nothing but blanks. -/
theorem isPadded_trimChars (chars : List Char) : IsPadded chars (trimChars chars) := by
  refine ⟨chars.takeWhile isBlank, (chars.dropWhile isBlank).rtakeWhile isBlank, ?_,
    fun c hc => List.mem_takeWhile_imp hc, fun c hc => List.mem_rtakeWhile_imp hc⟩
  rw [trimChars_eq, List.append_assoc, List.rdropWhile_append_rtakeWhile,
    List.takeWhile_append_dropWhile]

/-- Trimming leaves a part that stands together. -/
theorem trimChars_isInfix (chars : List Char) : trimChars chars <:+: chars := by
  obtain ⟨front, back, hChars, -⟩ := isPadded_trimChars chars
  exact ⟨front, back, hChars.symm⟩

/-- Blanks around a text make no difference to what is left of it. -/
theorem IsPadded.trimChars_eq {chars text : List Char} (h : IsPadded chars text) :
    trimChars chars = trimChars text := by
  obtain ⟨front, back, rfl, hFront, hBack⟩ := h
  rw [SqlScript.trimChars_eq, SqlScript.trimChars_eq, List.append_assoc,
    List.dropWhile_append_of_pos hFront, List.dropWhile_append]
  split
  · -- The text is blank itself, and so nothing is left with or without the blanks behind it.
    next hBlank =>
    have hText : text.dropWhile isBlank = [] := List.isEmpty_iff.mp hBlank
    have hNone : back.dropWhile isBlank = [] := List.dropWhile_eq_nil_iff.mpr hBack
    rw [hText, hNone]
  · have hReverse : ∀ c ∈ back.reverse, isBlank c = true :=
      fun c hc => hBack c (List.mem_reverse.mp hc)
    unfold List.rdropWhile
    rw [List.reverse_append, List.dropWhile_append_of_pos hReverse]

/-- Blanks behind characters that need no trimming are trimmed off. -/
theorem trimChars_append {chars trail : List Char} (h : Trimmed chars)
    (hTrail : ∀ c ∈ trail, isBlank c = true) : trimChars (chars ++ trail) = chars := by
  obtain ⟨front, last, rfl⟩ := (List.eq_nil_or_concat' chars).resolve_left h.ne_nil
  have hLast : ¬ isBlank last = true := by
    simpa using h.last last (by simp)
  have hFront : (front ++ [last]).dropWhile isBlank = front ++ [last] := by
    cases front with
    | nil => rw [List.nil_append, List.dropWhile_cons_of_neg hLast]
    | cons c rest =>
      have hHead := h.head c rfl
      rw [List.cons_append, List.dropWhile_cons_of_neg (by simp [hHead])]
  have hPadded : IsPadded (front ++ [last] ++ trail) (front ++ [last]) :=
    ⟨[], trail, rfl, nofun, hTrail⟩
  rw [hPadded.trimChars_eq, trimChars_eq, hFront, List.rdropWhile_concat_neg _ _ _ hLast]

end SqlScript
