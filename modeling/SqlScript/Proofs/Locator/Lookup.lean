import Mathlib.Algebra.GroupWithZero.Nat
import SqlScript.Locator

/-!
# Looking positions up

A locator answers from its cursor where it can. This module relates it to a look-up without a
cursor, `placeOf`, and that one to the script itself.

The invariant is `Locator.Sound`: the cursor is where walking from the start of its line leads.
Looking up positions with a column of at least 1 keeps it, so every answer is the one that a new
locator gives.

## Results

* `Locator.find_eq`           — a sound locator finds what `placeOf` says and stays sound.
* `placeOf_advanceBy`         — the place of the position after some characters is behind them.
* `Locator.slice_eq`          — a sound locator cuts out the text between two positions.
* `textBetween_advanceBy`     — the text between the positions of two places is what stands there.
-/

namespace SqlScript

/-- Columns are counted from 1. -/
theorem Position.one_le_column_advanceBy {position : Position} (h : 1 ≤ position.column)
    (chars : List Char) : 1 ≤ (position.advanceBy chars).column := by
  induction chars generalizing position with
  | nil => exact h
  | cons c rest ih =>
    rw [advanceBy_cons]
    refine ih ?_
    unfold advance
    split
    · exact Nat.le_refl 1
    · exact Nat.le_add_left 1 position.column

theorem Position.one_le_column_start (chars : List Char) :
    1 ≤ (start.advanceBy chars).column :=
  one_le_column_advanceBy (Nat.le_refl 1) chars

/-! ## Walking along a script -/

@[simp] theorem Spot.skip_zero (spot : Spot) : spot.skip 0 = spot := by
  unfold skip
  rfl

theorem Spot.skip_nil (index offset n : Nat) :
    skip ⟨index, offset, []⟩ n = ⟨index, offset, []⟩ := by
  cases n <;> rfl

theorem Spot.skip_cons (index offset : Nat) (c : Char) (rest : List Char) (n : Nat) :
    skip ⟨index, offset, c :: rest⟩ (n + 1) =
      skip ⟨index + 1, offset + c.utf8Size, rest⟩ n := rfl

/-- A walk can be interrupted, also behind the end of the script. -/
theorem Spot.skip_skip (spot : Spot) (m n : Nat) : (spot.skip m).skip n = spot.skip (m + n) := by
  induction m generalizing spot with
  | zero => rw [skip_zero, Nat.zero_add]
  | succ m ih =>
    obtain ⟨index, offset, rest⟩ := spot
    cases rest with
    | nil => simp only [skip_nil]
    | cons c rest => rw [skip_cons, ih, Nat.add_right_comm, skip_cons]

/-- The place behind some characters of the script. -/
def Spot.behind (front after : List Char) : Spot :=
  ⟨front.length, (front.map Char.utf8Size).sum, after⟩

/-! ## Look-up without a cursor -/

/-- The place of a position in a script, counted from the start of its line. -/
def placeOf (script : List Char) (position : Position) : Spot :=
  let locator := Locator.ofChars script
  match locator.lines[position.line - 1]? with
  | none => locator.final
  | some lineStart =>
    let spot := lineStart.skip (max position.column 1 - 1)
    if spot.rest.isEmpty then locator.final else spot

/-- The locator knows the lines of the script, and its cursor stands where walking from the start
of its line leads. -/
structure Locator.Sound (locator : Locator) (script : List Char) : Prop where
  lines : locator.lines = (ofChars script).lines
  final : locator.final = (ofChars script).final
  column : 1 ≤ locator.position.column
  spot : ∃ lineStart, locator.lines[locator.position.line - 1]? = some lineStart ∧
    lineStart.skip (locator.position.column - 1) = locator.spot

/-- Walking from the base that the cursor offers is walking from the start of the line. -/
theorem Locator.Sound.skip_base {locator : Locator} {script : List Char}
    (h : locator.Sound script) {position : Position} {lineStart : Spot}
    (hLine : locator.lines[position.line - 1]? = some lineStart) (hColumn : 1 ≤ position.column) :
    (locator.base lineStart position).1.skip
        (max position.column 1 - (locator.base lineStart position).2) =
      lineStart.skip (max position.column 1 - 1) := by
  unfold base
  split
  · next hCursor =>
    obtain ⟨hSame, hLe⟩ := hCursor
    obtain ⟨cursorLine, hCursorLine, hSpot⟩ := h.spot
    have hOne := h.column
    -- The cursor is on the line of the position, so both walks start at the same place.
    rw [hSame, hLine] at hCursorLine
    cases hCursorLine
    rw [← hSpot, Spot.skip_skip]
    congr 1
    omega
  · rfl

/-- A sound locator answers as if it had no cursor, and it stays sound. -/
theorem Locator.find_eq {locator : Locator} {script : List Char} (h : locator.Sound script)
    {position : Position} (hColumn : 1 ≤ position.column) :
    (locator.find position).1 = placeOf script position ∧
      (locator.find position).2.Sound script := by
  unfold find placeOf
  simp only [← h.lines, ← h.final]
  cases hLine : locator.lines[position.line - 1]? with
  | none => exact ⟨rfl, h⟩
  | some lineStart =>
    -- From the cursor or from the start of the line, the walk leads to the same place.
    have hWalk := h.skip_base hLine hColumn
    simp only [hWalk]
    split
    · exact ⟨rfl, h⟩
    · refine ⟨rfl, h.lines, h.final, hColumn, lineStart, hLine, ?_⟩
      rw [Nat.max_eq_left hColumn]

/-! ## The lines of a script -/

section Lines

variable {starts : Array Spot} {index offset : Nat} {line : Nat} {lineStart : Spot}

/-- The lines that were found stay where they are in the table. -/
theorem Spot.collectLines_getElem? {n : Nat} {spot : Spot} (h : starts[n]? = some spot)
    (chars : List Char) : (collectLines starts index offset chars).1[n]? = some spot := by
  induction chars generalizing starts index offset with
  | nil => exact h
  | cons c rest ih =>
    simp only [collectLines]
    split
    · refine ih ?_
      have hBound := (Array.getElem?_eq_some_iff.mp h).1
      rw [Array.getElem?_push_lt hBound]
      rw [Array.getElem?_eq_getElem hBound] at h
      exact h
    · exact ih h

/-- At the end all characters and all their bytes have been counted. -/
theorem Spot.collectLines_final (chars : List Char) :
    (collectLines starts index offset chars).2 =
      ⟨index + chars.length, offset + (chars.map Char.utf8Size).sum, []⟩ := by
  induction chars generalizing starts index offset with
  | nil => rfl
  | cons c rest ih =>
    simp only [collectLines]
    rw [ih]
    simp only [List.length_cons, List.map_cons, List.sum_cons, Spot.mk.injEq, and_true]
    omega

/-- Reading some characters leads to a place that the table of lines knows too: the start of the
current line is in it, and the walk from there is as long as the column says. -/
theorem Spot.collectLines_advanceBy {position : Position} (hSize : starts.size = position.line)
    (hLine : starts[position.line - 1]? = some lineStart) (hColumn : 1 ≤ position.column)
    (front after : List Char)
    (hHere : lineStart.skip (position.column - 1) = ⟨index, offset, front ++ after⟩) :
    ∃ lineStart',
      (collectLines starts index offset (front ++ after)).1[(position.advanceBy front).line - 1]? =
        some lineStart' ∧
      lineStart'.skip ((position.advanceBy front).column - 1) =
        ⟨index + front.length, offset + (front.map Char.utf8Size).sum, after⟩ := by
  induction front generalizing starts index offset position lineStart with
  | nil => exact ⟨lineStart, collectLines_getElem? hLine _, by simpa using hHere⟩
  | cons c front ih =>
    have hNext : lineStart.skip position.column =
        ⟨index + 1, offset + c.utf8Size, front ++ after⟩ := by
      have hStep := skip_skip lineStart (position.column - 1) 1
      rw [hHere, List.cons_append, skip_cons, skip_zero] at hStep
      rw [hStep]
      congr 1
      omega
    simp only [List.cons_append, collectLines, Position.advanceBy_cons, Position.advance]
    by_cases hNewline : c = '\n'
    · -- A new line starts behind the newline, and it is the last one of the table.
      rw [if_pos hNewline, if_pos hNewline]
      obtain ⟨lineStart', hFound, hSkip⟩ := @ih
        (starts.push ⟨index + 1, offset + c.utf8Size, front ++ after⟩) (index + 1)
        (offset + c.utf8Size) ⟨index + 1, offset + c.utf8Size, front ++ after⟩
        ⟨position.line + 1, 1⟩ (by simp [hSize]) (by simp [← hSize]) (Nat.le_refl 1) (by simp)
      refine ⟨lineStart', hFound, ?_⟩
      rw [hSkip]
      simp only [List.length_cons, List.map_cons, List.sum_cons, Spot.mk.injEq, and_true]
      omega
    · rw [if_neg hNewline, if_neg hNewline]
      obtain ⟨lineStart', hFound, hSkip⟩ := @ih starts (index + 1) (offset + c.utf8Size) lineStart
        ⟨position.line, position.column + 1⟩ hSize hLine (by simp) (by simpa using hNext)
      refine ⟨lineStart', hFound, ?_⟩
      rw [hSkip]
      simp only [List.length_cons, List.map_cons, List.sum_cons, Spot.mk.injEq, and_true]
      omega

end Lines

/-- A new locator has its cursor at the start of the first line. -/
theorem Locator.sound_ofChars (script : List Char) : (ofChars script).Sound script where
  lines := rfl
  final := rfl
  column := Nat.le_refl 1
  spot := ⟨⟨0, 0, script⟩, Spot.collectLines_getElem? rfl script, by simp [ofChars, Position.start]⟩

/-- The position after some characters is looked up to be the place behind them. -/
theorem placeOf_advanceBy (front after : List Char) :
    placeOf (front ++ after) (Position.start.advanceBy front) = Spot.behind front after := by
  obtain ⟨lineStart, hLine, hSkip⟩ := @Spot.collectLines_advanceBy #[⟨0, 0, front ++ after⟩] 0 0
    ⟨0, 0, front ++ after⟩ Position.start rfl rfl (Nat.le_refl 1) front after
    (by simp [Position.start])
  have hColumn : 1 ≤ (Position.start.advanceBy front).column :=
    Position.one_le_column_start front
  unfold placeOf
  simp only [Locator.ofChars, hLine, Nat.max_eq_left hColumn, hSkip]
  split
  · next hEnd =>
    -- At the end of the script the final place is the one walked to.
    obtain rfl : after = [] := by simpa using hEnd
    rw [Spot.collectLines_final]
    simp [Spot.behind]
  · simp [Spot.behind]

/-! ## Text between places -/

/-- The characters of a script from one position up to another. -/
def textBetween (script : List Char) (first last : Position) : List Char :=
  (placeOf script first).rest.take ((placeOf script last).index - (placeOf script first).index)

/-- A sound locator cuts out the same text whatever was looked up before. -/
theorem Locator.slice_eq {locator : Locator} {script : List Char} (h : locator.Sound script)
    {first last : Position} (hFirst : 1 ≤ first.column) (hLast : 1 ≤ last.column) :
    (locator.slice first last).1 = textBetween script first last ∧
      (locator.slice first last).2.Sound script := by
  obtain ⟨hOpening, hSound⟩ := find_eq h hFirst
  obtain ⟨hClosing, hSound'⟩ := find_eq hSound hLast
  unfold slice textBetween
  refine ⟨?_, hSound'⟩
  simp only [hOpening, hClosing]

/-- A sound locator cuts out the same rest of the script whatever was looked up before. -/
theorem Locator.sliceFrom_eq {locator : Locator} {script : List Char} (h : locator.Sound script)
    {first : Position} (hFirst : 1 ≤ first.column) :
    (locator.sliceFrom first).1 = (placeOf script first).rest := by
  have hOpening := (find_eq h hFirst).1
  simp only [sliceFrom, hOpening]

/-- Between the positions of two places stands what the script has there. -/
theorem textBetween_advanceBy (front middle after : List Char) :
    textBetween (front ++ middle ++ after) (Position.start.advanceBy front)
      (Position.start.advanceBy (front ++ middle)) = middle := by
  have hClosing := placeOf_advanceBy (front ++ middle) after
  have hOpening := placeOf_advanceBy front (middle ++ after)
  rw [← List.append_assoc] at hOpening
  unfold textBetween
  rw [hOpening, hClosing]
  simp [Spot.behind]

end SqlScript
