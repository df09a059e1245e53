import SqlScript.Proofs.Locator.Bytes

/-!
# Look-ups with every step checked

Tokens say where they start, and a locator has to find these places whatever they are: in column 0,
on line 0, behind the end, in any order. Two kinds of step in a look-up can go wrong. A column is
subtracted from another one, which has to be the larger, and text is cut out of the script at byte
offsets, which have to be in order and between characters.

The look-ups of this module work on offsets alone and do these steps one by one: a `Cursor` gives
no result at all if a difference is negative (`checkedSub`) or an offset is out of place
(`checkedExtract`). It turns out that it always gives one, and that it is the result of the locator.

The invariant is `Locator.Follows`: the cursor stands between two characters. It says less than
`Locator.Sound`. A cursor in column 0 is not where walking from the start of its line leads, and the
answers that are counted from there differ from those of a new locator. But they are places of the
script all the same, and the invariant survives every look-up.

## Results

* `Locator.Follows.find`   — a checked look-up succeeds and finds the place that the locator finds.
* `Locator.Follows.slice`, `Locator.Follows.sliceFrom` — text is cut out without failing, too, and
  stands in the script.
* `Locator.Follows.askAll` — so all questions are answered, one after the other.
-/

namespace SqlScript

open String (utf8Len)

/-! ## Steps that can fail -/

/-- The difference of two numbers, unless it is negative. -/
def checkedSub (m n : Nat) : Option Nat := if n ≤ m then some (m - n) else none

/-- The text between two byte offsets, unless they are in the wrong order or one of them is not
between two characters of the script. -/
def checkedExtract (script : String) (first last : Nat) : Option String :=
  if first ≤ last ∧ String.Pos.Raw.IsValid script ⟨first⟩ ∧
      String.Pos.Raw.IsValid script ⟨last⟩ then
    some (String.Pos.Raw.extract script ⟨first⟩ ⟨last⟩)
  else none

theorem checkedSub_of_le {m n : Nat} (h : n ≤ m) : checkedSub m n = some (m - n) := if_pos h

namespace Spot.At

variable {script : String} {spot other : Spot} {offset bound : Nat}

/-- A place is between two characters. -/
theorem isValid (h : spot.At script offset) : String.Pos.Raw.IsValid script ⟨offset⟩ := by
  obtain ⟨front, after, hScript, -, rfl⟩ := h
  refine String.Pos.Raw.isValid_iff_exists_take_toList.mpr ⟨front.length, ?_⟩
  rw [hScript, List.take_left, String.utf8ByteSize_ofList]

theorem le_size (h : spot.At script offset) : offset ≤ script.utf8ByteSize := by
  obtain ⟨front, after, hScript, -, rfl⟩ := h
  rw [← String.utf8Len_toList, hScript, String.utf8Len_append]
  exact Nat.le_add_right _ _

theorem offset_eq (h : spot.At script offset) : spot.offset = offset := by
  obtain ⟨front, after, -, rfl, rfl⟩ := h
  exact (utf8Len_eq_sum front).symm

/-- The characters behind a place are the end of the script. -/
theorem rest_isSuffix (h : spot.At script offset) : spot.rest <:+ script.toList := by
  obtain ⟨front, after, hScript, rfl, -⟩ := h
  exact ⟨front, hScript.symm⟩

/-- The end of the script is a place of it. -/
theorem final (script : String) :
    (Locator.ofChars script.toList).final.At script script.utf8ByteSize :=
  ⟨script.toList, [], (List.append_nil _).symm, Locator.final_ofChars _,
    (String.utf8Len_toList script).symm⟩

theorem checkedExtract_end (h : spot.At script offset) :
    checkedExtract script offset script.utf8ByteSize = some (String.ofList spot.rest) := by
  have hBounds := And.intro h.le_size (And.intro h.isValid (final script).isValid)
  rw [checkedExtract, if_pos hBounds, h.extract_end]

theorem checkedExtract_between (h : spot.At script offset) (h' : other.At script bound) :
    checkedExtract script offset (max offset bound) =
      some (String.ofList (spot.rest.take (other.index - spot.index))) := by
  -- The larger one of two places is a place.
  have hMax : String.Pos.Raw.IsValid script ⟨max offset bound⟩ := by
    rcases Nat.le_total offset bound with hLe | hLe
    · rw [Nat.max_eq_right hLe]
      exact h'.isValid
    · rw [Nat.max_eq_left hLe]
      exact h.isValid
  have hBounds := And.intro (Nat.le_max_left offset bound) (And.intro h.isValid hMax)
  rw [checkedExtract, if_pos hBounds, h.extract_between h']

/-- A walk over some characters leads behind their bytes. -/
theorem skip (h : spot.At script offset) (n : Nat) :
    (spot.skip n).At script (offset + utf8Len (spot.rest.take n)) ∧
      (spot.skip n).rest = spot.rest.drop n := by
  obtain ⟨front, after, hScript, rfl, rfl⟩ := h
  rw [Spot.skip_behind]
  refine ⟨⟨front ++ after.take n, after.drop n, ?_, rfl, ?_⟩, rfl⟩
  · rw [List.append_assoc, List.take_append_drop, hScript]
  · rw [String.utf8Len_append]
    rfl

end Spot.At

/-! ## Checked look-ups -/

/-- A position and the byte offset that it was found at. -/
structure Cursor where
  position : Position
  offset : Nat
  deriving DecidableEq, Repr

namespace Cursor

/-- The cursor on the first character. -/
def start : Cursor := ⟨Position.start, 0⟩

/-- The offset and the column from which a position is counted. -/
def base (cursor : Cursor) (lineStart : Nat) (position : Position) : Nat × Nat :=
  if cursor.position.line = position.line ∧ cursor.position.column ≤ position.column then
    (cursor.offset, cursor.position.column)
  else (lineStart, 1)

/-- The byte offset of a position, and the cursor there. -/
def find (script : String) (cursor : Cursor) (position : Position) : Option (Nat × Cursor) :=
  match (lineStarts script)[position.line - 1]? with
  | none => some (script.utf8ByteSize, cursor)
  | some lineStart => do
    let (origin, column) := cursor.base lineStart position
    let tail ← checkedExtract script origin script.utf8ByteSize
    let distance ← checkedSub (max position.column 1) column
    match (charStarts tail.toList)[distance]? with
    | none => some (script.utf8ByteSize, cursor)
    | some further => some (origin + further, ⟨position, origin + further⟩)

/-- The text from one position up to another. -/
def slice (script : String) (cursor : Cursor) (first last : Position) :
    Option (String × Cursor) := do
  let (opening, cursor) ← cursor.find script first
  let (closing, cursor) ← cursor.find script last
  let piece ← checkedExtract script opening (max opening closing)
  return (piece, cursor)

/-- The text from a position to the end of the script. -/
def sliceFrom (script : String) (cursor : Cursor) (first : Position) :
    Option (String × Cursor) := do
  let (opening, cursor) ← cursor.find script first
  let piece ← checkedExtract script opening script.utf8ByteSize
  return (piece, cursor)

/-- The reply to a question, and the cursor afterwards. -/
def ask (script : String) (cursor : Cursor) : Query → Option (Reply × Cursor)
  | .offset position => do
    let (bytes, cursor) ← cursor.find script position
    return (.offset bytes, cursor)
  | .slice first last => do
    let (piece, cursor) ← cursor.slice script first last
    return (.text piece, cursor)
  | .sliceFrom first => do
    let (piece, cursor) ← cursor.sliceFrom script first
    return (.text piece, cursor)

/-- The replies to some questions after each other, and the cursor after all of them. -/
def askAll (script : String) (cursor : Cursor) : List Query → Option (List Reply × Cursor)
  | [] => some ([], cursor)
  | query :: rest => do
    let (reply, next) ← cursor.ask script query
    let (replies, last) ← askAll script next rest
    return (reply :: replies, last)

end Cursor

/-! ## The locator and the cursor -/

namespace Locator

/-- The locator knows the lines of the script, and its cursor stands between two characters, where
the other one stands. -/
structure Follows (locator : Locator) (script : String) (cursor : Cursor) : Prop where
  lines : locator.lines = (ofChars script.toList).lines
  final : locator.final = (ofChars script.toList).final
  position : locator.position = cursor.position
  spot : locator.spot.At script cursor.offset

theorem follows_ofString (script : String) : (ofString script).Follows script .start where
  lines := rfl
  final := rfl
  position := rfl
  spot := ⟨[], script.toList, rfl, rfl, rfl⟩

/-- The locator after some questions. -/
def afterAll (locator : Locator) (queries : List Query) : Locator :=
  queries.foldl (fun locator query => (locator.ask query).2) locator

namespace Follows

variable {locator : Locator} {script : String} {cursor : Cursor}

/-- Both count from the same place and column, and that column is never the larger one. -/
theorem base (h : locator.Follows script cursor) {lineStart : Spot} {offset : Nat}
    (hStart : lineStart.At script offset) (position : Position) :
    (locator.base lineStart position).1.At script (cursor.base offset position).1 ∧
      (locator.base lineStart position).2 = (cursor.base offset position).2 ∧
      (cursor.base offset position).2 ≤ max position.column 1 := by
  unfold Locator.base Cursor.base
  rw [h.position]
  by_cases hCursor : cursor.position.line = position.line ∧
      cursor.position.column ≤ position.column
  · -- The cursor is not further right, also if one of the two is in column 0.
    rw [if_pos hCursor, if_pos hCursor]
    refine ⟨h.spot, rfl, ?_⟩
    have hLe := hCursor.2
    show cursor.position.column ≤ max position.column 1
    omega
  · rw [if_neg hCursor, if_neg hCursor]
    exact ⟨hStart, rfl, Nat.le_max_right _ _⟩

/-- A checked look-up succeeds, and it finds the place that the locator finds. -/
theorem find (h : locator.Follows script cursor) (position : Position) :
    ∃ offset next, cursor.find script position = some (offset, next) ∧
      (locator.find position).1.At script offset ∧
      (locator.find position).2.Follows script next := by
  have hEnd : locator.final.At script script.utf8ByteSize := h.final ▸ Spot.At.final script
  unfold Locator.find Cursor.find
  rw [h.lines]
  obtain ⟨hLine, hStart⟩ | ⟨front, after, hScript, hLine, hStart⟩ :=
    line_cases script (position.line - 1)
  · -- There is no such line, so the cursors stay.
    rw [hLine, hStart]
    exact ⟨_, _, rfl, hEnd, h⟩
  · rw [hLine, hStart]
    dsimp only
    obtain ⟨hOrigin, hColumn, hLe⟩ := h.base ⟨front, after, hScript, rfl, rfl⟩ position
    rw [hOrigin.checkedExtract_end, checkedSub_of_le hLe, hColumn]
    generalize (locator.base (Spot.behind front after) position).1 = origin at hOrigin ⊢
    generalize (cursor.base (utf8Len front) position).1 = offset at hOrigin ⊢
    generalize max position.column 1 - (cursor.base (utf8Len front) position).2 = distance
    obtain ⟨hPlace, hRest⟩ := hOrigin.skip distance
    rw [Option.bind_eq_bind, Option.bind_some, Option.bind_eq_bind, Option.bind_some,
      String.toList_ofList, getElem?_charStarts, hRest]
    by_cases hReach : distance < origin.rest.length
    · -- The character exists, and both cursors go there.
      have hSome : ¬ (origin.rest.drop distance).isEmpty = true := by
        rw [List.isEmpty_iff, List.drop_eq_nil_iff]
        omega
      rw [if_pos hReach, if_neg hSome]
      exact ⟨_, _, rfl, hPlace, rfl, h.final, rfl, hPlace⟩
    · have hNone : (origin.rest.drop distance).isEmpty = true := by
        rw [List.isEmpty_iff, List.drop_eq_nil_iff]
        omega
      rw [if_neg hReach, if_pos hNone]
      exact ⟨_, _, rfl, hEnd, h⟩

/-- Text between two positions is cut out without failing, and it stands in the script. -/
theorem slice (h : locator.Follows script cursor) (first last : Position) :
    ∃ next, cursor.slice script first last =
        some (String.ofList (locator.slice first last).1, next) ∧
      (locator.slice first last).1 <:+: script.toList ∧
      (locator.slice first last).2.Follows script next := by
  obtain ⟨opening, between, hOpening, hFirst, hBetween⟩ := h.find first
  obtain ⟨closing, next, hClosing, hLast, hNext⟩ := hBetween.find last
  refine ⟨next, ?_, ?_, hNext⟩
  · have hPiece := hFirst.checkedExtract_between hLast
    simp only [Cursor.slice, hOpening, hClosing, hPiece, Option.bind_eq_bind, Option.bind_some]
    rfl
  · exact (List.take_prefix _ _).isInfix.trans hFirst.rest_isSuffix.isInfix

/-- Text up to the end is cut out without failing, and it stands in the script. -/
theorem sliceFrom (h : locator.Follows script cursor) (first : Position) :
    ∃ next, cursor.sliceFrom script first =
        some (String.ofList (locator.sliceFrom first).1, next) ∧
      (locator.sliceFrom first).1 <:+: script.toList ∧
      (locator.sliceFrom first).2.Follows script next := by
  obtain ⟨opening, next, hOpening, hFirst, hNext⟩ := h.find first
  refine ⟨next, ?_, hFirst.rest_isSuffix.isInfix, hNext⟩
  simp only [Cursor.sliceFrom, hOpening, hFirst.checkedExtract_end, Option.bind_eq_bind,
    Option.bind_some]
  rfl

/-- A question is answered without failing, and the reply is the locator's. -/
theorem ask (h : locator.Follows script cursor) (query : Query) :
    ∃ next, cursor.ask script query = some ((locator.ask query).1, next) ∧
      (locator.ask query).2.Follows script next := by
  cases query with
  | offset position =>
    obtain ⟨offset, next, hFound, hPlace, hNext⟩ := h.find position
    refine ⟨next, ?_, hNext⟩
    have hReply : (locator.ask (.offset position)).1 = .offset offset := by
      show Reply.offset (locator.find position).1.offset = .offset offset
      rw [hPlace.offset_eq]
    simp only [Cursor.ask, hFound, hReply, Option.bind_eq_bind, Option.bind_some]
    rfl
  | slice first last =>
    obtain ⟨next, hPiece, -, hNext⟩ := h.slice first last
    refine ⟨next, ?_, hNext⟩
    simp only [Cursor.ask, hPiece, Option.bind_eq_bind, Option.bind_some]
    rfl
  | sliceFrom first =>
    obtain ⟨next, hPiece, -, hNext⟩ := h.sliceFrom first
    refine ⟨next, ?_, hNext⟩
    simp only [Cursor.ask, hPiece, Option.bind_eq_bind, Option.bind_some]
    rfl

/-- So are any questions one after the other, wherever they leave the cursor. -/
theorem askAll (h : locator.Follows script cursor) (queries : List Query) :
    ∃ last, cursor.askAll script queries = some (locator.askAll queries, last) ∧
      (locator.afterAll queries).Follows script last := by
  induction queries generalizing locator cursor with
  | nil => exact ⟨cursor, rfl, h⟩
  | cons query rest ih =>
    obtain ⟨next, hReply, hNext⟩ := h.ask query
    obtain ⟨last, hReplies, hLast⟩ := ih hNext
    refine ⟨last, ?_, hLast⟩
    simp only [Cursor.askAll, hReply, hReplies, Option.bind_eq_bind, Option.bind_some]
    rfl

end Follows

end Locator

/-- A cursor in column 0 is one character off for the rest of its line. -/
example : Cursor.start.askAll "éab" [.offset ⟨1, 0⟩, .offset ⟨1, 2⟩, .slice ⟨1, 0⟩ ⟨9, 9⟩] =
    some ([.offset 0, .offset 3, .text "éab"], ⟨⟨1, 0⟩, 0⟩) := by
  decide +kernel

end SqlScript
