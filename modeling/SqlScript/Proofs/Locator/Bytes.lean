import Mathlib.Data.String.Basic
import SqlScript.Proofs.Locator.Lookup
import SqlScript.Text

/-!
# Byte offsets of positions

A script is a sequence of bytes. Its lines start at the beginning and behind every newline byte,
and a position is so many characters behind the start of its line, into the lines after it if that
line is shorter. `byteOffset` reads a position off the script in this way; it keeps no table of
places and no cursor.

A locator that is asked one thing after another answers each question by the offsets that
`byteOffset` gives, whatever it was asked before:

* its table of lines is the list of line starts (`Locator.map_offset_lines`), since a newline byte
  is part of no other character;
* a walk along characters is a walk along the offsets where characters start
  (`filter_charStarts`);
* the cursor makes no difference (`Locator.find_eq`), as long as columns are counted from 1.

## Results

* `placeOf_at`          — the place of a position is behind as many bytes as `byteOffset` says.
* `askAll_eq_replies`   — every answer of a locator is the one that the script itself gives.
-/

namespace SqlScript

open String (utf8Len)

/-! ## Offsets read off the script -/

/-- The byte offsets at which the lines of a script start: 0, and behind every newline byte. -/
def lineStarts (script : String) : List Nat := 0 :: script.toByteArray.data.toList.idxsOf 10 1

/-- The byte offsets at which the characters of a script start. -/
def charStarts (chars : List Char) : List Nat :=
  (List.range chars.length).map fun n => utf8Len (chars.take n)

/-- The byte offset of a position: as many characters behind the start of its line as its column
says, or the end of the script if it has no such line or no such character. -/
def byteOffset (script : String) (position : Position) : Nat :=
  match (lineStarts script)[max position.line 1 - 1]? with
  | none => script.utf8ByteSize
  | some lineStart =>
    let followers := (charStarts script.toList).filter (lineStart ≤ ·)
    followers[position.column - 1]?.getD script.utf8ByteSize

/-- The characters of a text take up the bytes that each of them takes up. -/
theorem utf8Len_eq_sum (chars : List Char) : utf8Len chars = (chars.map Char.utf8Size).sum := by
  induction chars with
  | nil => rfl
  | cons c rest ih =>
    rw [String.utf8Len_cons, ih, List.map_cons, List.sum_cons]
    omega

/-! ## Lines -/

/-- Of all characters only a newline has a newline byte in it. -/
theorem newline_mem_utf8EncodeChar (c : Char) :
    (10 : UInt8) ∈ String.utf8EncodeChar c ↔ c = '\n' := by
  have hNewline : c = '\n' ↔ c.val.toNat = 10 := by
    rw [← Char.val_inj, ← UInt32.toNat_inj]
    rfl
  have hByte : ∀ n : Nat, (10 : UInt8) = UInt8.ofNat n ↔ n % 256 = 10 := by
    intro n
    rw [← UInt8.toNat_inj, UInt8.toNat_ofNat']
    exact eq_comm
  -- The bytes of a longer character are all 128 or more.
  rw [hNewline, String.utf8EncodeChar]
  repeat' split
  all_goals simp only [List.mem_cons, List.not_mem_nil, or_false, hByte]
  all_goals omega

/-- A character has a newline byte if it is a newline, and that is its first and only one. -/
theorem idxsOf_newline (c : Char) (n : Nat) :
    (String.utf8EncodeChar c).idxsOf 10 n = if c = '\n' then [n] else [] := by
  split
  · next hNewline =>
    subst hNewline
    rfl
  · next hOther =>
    refine List.findIdxs_eq_nil_iff.mpr fun byte hByte => ?_
    rw [beq_eq_false_iff_ne]
    rintro rfl
    exact hOther ((newline_mem_utf8EncodeChar c).mp hByte)

/-- The table of lines holds the offsets behind the newline bytes. -/
theorem Spot.map_offset_collectLines (starts : Array Spot) (index offset : Nat)
    (chars : List Char) :
    (collectLines starts index offset chars).1.toList.map Spot.offset =
      starts.toList.map Spot.offset ++
        (chars.flatMap String.utf8EncodeChar).idxsOf 10 (offset + 1) := by
  induction chars generalizing starts index offset with
  | nil => simp [collectLines]
  | cons c rest ih =>
    have hNext : offset + 1 + c.utf8Size = offset + c.utf8Size + 1 := by omega
    simp only [collectLines]
    rw [ih, List.flatMap_cons, List.idxsOf_append, idxsOf_newline, String.length_utf8EncodeChar,
      hNext]
    by_cases hNewline : c = '\n'
    · -- A newline is one byte long, so the next line starts at once behind it.
      have hSize : c.utf8Size = 1 := by rw [hNewline]; rfl
      rw [if_pos hNewline, if_pos hNewline, Array.toList_push, List.map_append, List.append_assoc,
        hSize]
      rfl
    · rw [if_neg hNewline, if_neg hNewline, List.nil_append]

/-- A locator knows the offsets at which the lines of the script start. -/
theorem Locator.map_offset_lines (script : String) :
    (ofChars script.toList).lines.toList.map Spot.offset = lineStarts script := by
  show _ = 0 :: (bytes script).idxsOf 10 1
  rw [bytes_eq]
  exact Spot.map_offset_collectLines #[⟨0, 0, script.toList⟩] 0 0 script.toList

/-- Every line of the table starts behind some characters of the script. -/
theorem Spot.exists_behind_of_mem_collectLines {script : List Char} {starts : Array Spot}
    (hStarts : ∀ spot ∈ starts, ∃ front after, script = front ++ after ∧ spot = behind front after)
    (front chars : List Char) (hScript : script = front ++ chars) :
    ∀ spot ∈ (collectLines starts front.length (utf8Len front) chars).1,
      ∃ front after, script = front ++ after ∧ spot = behind front after := by
  induction chars generalizing starts front with
  | nil => exact hStarts
  | cons c rest ih =>
    have hNext : script = (front ++ [c]) ++ rest := by rw [hScript, List.append_assoc]; rfl
    have hLength : front.length + 1 = (front ++ [c]).length := by simp
    have hSize : utf8Len front + c.utf8Size = utf8Len (front ++ [c]) := by simp
    simp only [collectLines]
    rw [hLength, hSize]
    refine ih ?_ (front ++ [c]) hNext
    split
    · -- The line behind this newline is the one entry that is new.
      intro spot hSpot
      rcases Array.mem_push.mp hSpot with hOld | rfl
      · exact hStarts spot hOld
      · exact ⟨front ++ [c], rest, hNext, by rw [behind, utf8Len_eq_sum]⟩
    · exact hStarts

/-! ## Characters -/

/-- Walking on from behind some characters leads behind some more. -/
theorem Spot.skip_behind (front after : List Char) (n : Nat) :
    (behind front after).skip n = behind (front ++ after.take n) (after.drop n) := by
  induction n generalizing front after with
  | zero => simp
  | succ n ih =>
    cases after with
    | nil => simp [behind, skip_nil]
    | cons c rest =>
      have hStep : (behind front (c :: rest)).skip (n + 1) =
          (behind (front ++ [c]) rest).skip n := by
        simp [behind, skip_cons]
      rw [hStep, ih, List.append_assoc]
      rfl

/-- Behind a text, characters start so many bytes further on. -/
theorem charStarts_append (front after : List Char) :
    charStarts (front ++ after) =
      charStarts front ++ (charStarts after).map (utf8Len front + ·) := by
  unfold charStarts
  rw [List.length_append, List.range_add, List.map_append, List.map_map, List.map_map]
  congr 1
  · refine List.map_congr_left fun n hn => ?_
    rw [List.take_append_of_le_length (Nat.le_of_lt (List.mem_range.mp hn))]
  · refine List.map_congr_left fun n _ => ?_
    show utf8Len ((front ++ after).take (front.length + n)) = utf8Len front + utf8Len (after.take n)
    rw [List.take_length_add_append, String.utf8Len_append]

/-- A character of a text starts before the end of the text. -/
theorem lt_utf8Len_of_mem_charStarts {chars : List Char} {start : Nat}
    (h : start ∈ charStarts chars) : start < utf8Len chars := by
  obtain ⟨n, hn, rfl⟩ := List.mem_map.mp h
  have hDrop : utf8Len (chars.drop n) ≠ 0 := by
    rw [Ne, String.utf8Len_eq_zero, List.drop_eq_nil_iff]
    have := List.mem_range.mp hn
    omega
  calc utf8Len (chars.take n)
      < utf8Len (chars.take n) + utf8Len (chars.drop n) := by omega
    _ = utf8Len chars := by rw [← String.utf8Len_append, List.take_append_drop]

/-- The characters behind a place are those that start at its offset or after it. -/
theorem filter_charStarts (front after : List Char) :
    (charStarts (front ++ after)).filter (utf8Len front ≤ ·) =
      (charStarts after).map (utf8Len front + ·) := by
  -- All characters in front start before the offset, and all those behind at it or after it.
  have hFront : (charStarts front).filter (utf8Len front ≤ ·) = [] := by
    refine List.filter_eq_nil_iff.mpr fun start hStart => ?_
    have := lt_utf8Len_of_mem_charStarts hStart
    simp
    omega
  have hAfter : ((charStarts after).map (utf8Len front + ·)).filter (utf8Len front ≤ ·) =
      (charStarts after).map (utf8Len front + ·) := by
    refine List.filter_eq_self.mpr fun start hStart => ?_
    obtain ⟨n, -, rfl⟩ := List.mem_map.mp hStart
    simp
  rw [charStarts_append, List.filter_append, hFront, hAfter, List.nil_append]

theorem getElem?_charStarts (chars : List Char) (n : Nat) :
    (charStarts chars)[n]? = if n < chars.length then some (utf8Len (chars.take n)) else none := by
  unfold charStarts
  rw [List.getElem?_map]
  split
  · next hn => rw [List.getElem?_range hn]; rfl
  · next hn => rw [List.getElem?_eq_none (by simpa using hn)]; rfl

/-! ## Places -/

/-- The place is behind so many bytes of the script. -/
def Spot.At (script : String) (spot : Spot) (offset : Nat) : Prop :=
  ∃ front after, script.toList = front ++ after ∧ spot = behind front after ∧
    offset = utf8Len front

theorem Locator.final_ofChars (script : List Char) :
    (ofChars script).final = Spot.behind script [] := by
  show (Spot.collectLines #[⟨0, 0, script⟩] 0 0 script).2 = _
  rw [Spot.collectLines_final]
  simp [Spot.behind]

/-- The table of lines and the line starts of the script end together, and before that each entry
is the place behind as many bytes as the line start says. -/
theorem Locator.line_cases (script : String) (n : Nat) :
    ((ofChars script.toList).lines[n]? = none ∧ (lineStarts script)[n]? = none) ∨
      ∃ front after, script.toList = front ++ after ∧
        (ofChars script.toList).lines[n]? = some (Spot.behind front after) ∧
        (lineStarts script)[n]? = some (utf8Len front) := by
  -- The line starts are the offsets of the table, so both have an entry or neither.
  have hEntry : (lineStarts script)[n]? =
      (ofChars script.toList).lines[n]?.map Spot.offset := by
    rw [← map_offset_lines, List.getElem?_map, Array.getElem?_toList]
  have hBehind : ∀ spot ∈ (ofChars script.toList).lines, ∃ front after,
      script.toList = front ++ after ∧ spot = Spot.behind front after :=
    Spot.exists_behind_of_mem_collectLines
      (fun spot hSpot => ⟨[], script.toList, rfl, by simpa [Spot.behind] using hSpot⟩) [] _ rfl
  cases hLine : (ofChars script.toList).lines[n]? with
  | none =>
    rw [hLine] at hEntry
    exact .inl ⟨rfl, hEntry⟩
  | some spot =>
    obtain ⟨front, after, hScript, rfl⟩ := hBehind spot (Array.mem_of_getElem? hLine)
    rw [hLine, Option.map_some, Spot.behind, ← utf8Len_eq_sum] at hEntry
    exact .inr ⟨front, after, hScript, rfl, hEntry⟩

/-- The place of a position is behind as many bytes as can be read off the script. -/
theorem placeOf_at (script : String) (position : Position) :
    (placeOf script.toList position).At script (byteOffset script position) := by
  have hFinal := Locator.final_ofChars script.toList
  have hEnd : script.utf8ByteSize = utf8Len script.toList := (String.utf8Len_toList script).symm
  have hIndex : max position.line 1 - 1 = position.line - 1 := by omega
  have hColumn : max position.column 1 - 1 = position.column - 1 := by omega
  unfold Spot.At placeOf byteOffset
  dsimp only
  rw [hIndex, hColumn]
  obtain ⟨hLine, hStart⟩ | ⟨front, after, hScript, hLine, hStart⟩ :=
    Locator.line_cases script (position.line - 1)
  · rw [hLine, hStart]
    exact ⟨script.toList, [], (List.append_nil _).symm, hFinal, hEnd⟩
  · rw [hLine, hStart]
    dsimp only
    rw [Spot.skip_behind, hScript, filter_charStarts, List.getElem?_map, getElem?_charStarts]
    rw [hScript] at hFinal hEnd
    by_cases hReach : position.column - 1 < after.length
    · -- The character exists, and the walk from the start of the line ends in front of it.
      have hRest : ¬ (after.drop (position.column - 1)).isEmpty = true := by
        rw [List.isEmpty_iff, List.drop_eq_nil_iff]
        omega
      refine ⟨front ++ after.take (position.column - 1), after.drop (position.column - 1), ?_,
        if_neg hRest, ?_⟩
      · rw [List.append_assoc, List.take_append_drop]
      · rw [if_pos hReach, String.utf8Len_append]
        rfl
    · -- The script ends before the column is reached.
      have hRest : (after.drop (position.column - 1)).isEmpty = true := by
        rw [List.isEmpty_iff, List.drop_eq_nil_iff]
        omega
      refine ⟨front ++ after, [], (List.append_nil _).symm, (if_pos hRest).trans hFinal, ?_⟩
      rw [if_neg hReach]
      exact hEnd

/-- Reading characters leads to the offset behind their bytes. -/
theorem byteOffset_advanceBy {script : String} {front after : List Char}
    (h : script.toList = front ++ after) :
    byteOffset script (Position.start.advanceBy front) = utf8Len front := by
  obtain ⟨front', after', hScript, hPlace, hOffset⟩ :=
    placeOf_at script (Position.start.advanceBy front)
  rw [h, placeOf_advanceBy] at hPlace
  -- A place counts the characters in front of it, so there is one way only to cut the script.
  have hLength : front.length = front'.length := congrArg Spot.index hPlace
  rw [hOffset, (List.append_inj (hScript.symm.trans h) hLength.symm).1]

/-- Between the offsets in front of a part of the script and behind it stands that part. -/
theorem extract_of_append {script : String} {front middle after : List Char}
    (h : script.toList = front ++ middle ++ after) :
    String.Pos.Raw.extract script ⟨utf8Len front⟩ ⟨utf8Len front + utf8Len middle⟩ =
      String.ofList middle := by
  have hText : script = String.ofList (front ++ middle ++ after) := by
    rw [← String.toList_inj, String.toList_ofList, h]
  rw [hText, String.extract_of_valid]

namespace Spot.At

variable {script : String} {first last : Spot} {opening closing : Nat}

/-- The text between two places is what stands between their offsets. -/
theorem extract_between (h : first.At script opening) (h' : last.At script closing) :
    String.Pos.Raw.extract script ⟨opening⟩ ⟨max opening closing⟩ =
      String.ofList (first.rest.take (last.index - first.index)) := by
  obtain ⟨front, after, hScript, rfl, rfl⟩ := h
  obtain ⟨front', after', hScript', rfl, rfl⟩ := h'
  show _ = String.ofList (after.take (front'.length - front.length))
  rcases Nat.le_total front.length front'.length with hLe | hLe
  · -- The second place comes after the first, and some characters stand between them.
    obtain ⟨middle, rfl⟩ : ∃ middle, front' = front ++ middle := by
      have hPrefix : front <+: front' := List.prefix_of_prefix_length_le
        ⟨after, hScript.symm⟩ ⟨after', hScript'.symm⟩ hLe
      exact hPrefix.imp fun _ h => h.symm
    rw [hScript, List.append_assoc] at hScript'
    have hAfter : after = middle ++ after' := List.append_cancel_left hScript'
    have hText : script.toList = front ++ middle ++ after' := by
      rw [hScript, hAfter, List.append_assoc]
    have hMax : max (utf8Len front) (utf8Len (front ++ middle)) =
        utf8Len front + utf8Len middle := by
      rw [String.utf8Len_append]
      omega
    rw [hMax, hAfter, extract_of_append hText]
    simp
  · -- The second place does not come after the first, so nothing stands between them.
    have hPrefix : front' <+: front := List.prefix_of_prefix_length_le
      ⟨after', hScript'.symm⟩ ⟨after, hScript.symm⟩ hLe
    have hText : script.toList = front ++ [] ++ after := by
      rw [hScript, List.append_nil]
    have hMax : max (utf8Len front) (utf8Len front') = utf8Len front + utf8Len [] := by
      have := String.utf8Len_le_of_prefix hPrefix
      rw [String.utf8Len_nil]
      omega
    rw [hMax, extract_of_append hText, Nat.sub_eq_zero_of_le hLe]
    rfl

/-- The text behind a place is what stands behind its offset. -/
theorem extract_end (h : first.At script opening) :
    String.Pos.Raw.extract script ⟨opening⟩ ⟨script.utf8ByteSize⟩ = String.ofList first.rest := by
  obtain ⟨front, after, hScript, rfl, rfl⟩ := h
  have hText : script.toList = front ++ after ++ [] := by
    rw [hScript, List.append_nil]
  have hSize : script.utf8ByteSize = utf8Len front + utf8Len after := by
    rw [← String.utf8Len_toList, hScript, String.utf8Len_append]
  rw [hSize, extract_of_append hText]
  rfl

end Spot.At

/-- Bytes cut out between two offsets are the text between the places of the positions. -/
theorem extract_placeOf (script : String) (first last : Position) :
    let opening := byteOffset script first
    let closing := max opening (byteOffset script last)
    String.Pos.Raw.extract script ⟨opening⟩ ⟨closing⟩ =
      String.ofList (textBetween script.toList first last) :=
  Spot.At.extract_between (placeOf_at script first) (placeOf_at script last)

theorem extract_placeOf_end (script : String) (first : Position) :
    String.Pos.Raw.extract script ⟨byteOffset script first⟩ ⟨script.utf8ByteSize⟩ =
      String.ofList (placeOf script.toList first).rest :=
  Spot.At.extract_end (placeOf_at script first)

/-! ## Questions and replies -/

/-- Something that a locator is asked. -/
inductive Query where
  /-- The byte offset of a position. -/
  | offset (position : Position)
  /-- The text from one position up to another. -/
  | slice (first last : Position)
  /-- The text from a position to the end of the script. -/
  | sliceFrom (first : Position)

/-- What comes back. -/
inductive Reply where
  | offset (bytes : Nat)
  | text (piece : String)
  deriving DecidableEq

namespace Query

/-- The positions that a question is about. -/
def positions : Query → List Position
  | offset position => [position]
  | slice first last => [first, last]
  | sliceFrom first => [first]

/-- What the script itself replies: offsets as they are read off it, and the bytes between them. -/
def reply (script : String) : Query → Reply
  | offset position => .offset (byteOffset script position)
  | slice first last =>
    let opening := byteOffset script first
    let closing := max opening (byteOffset script last)
    .text (String.Pos.Raw.extract script ⟨opening⟩ ⟨closing⟩)
  | sliceFrom first =>
    .text (String.Pos.Raw.extract script ⟨byteOffset script first⟩ ⟨script.utf8ByteSize⟩)

end Query

namespace Locator

/-- What a locator replies, and the locator afterwards. -/
def ask (locator : Locator) : Query → Reply × Locator
  | .offset position =>
    let (bytes, locator) := locator.offset position
    (.offset bytes, locator)
  | .slice first last =>
    let (piece, locator) := locator.slice first last
    (.text (String.ofList piece), locator)
  | .sliceFrom first =>
    let (piece, locator) := locator.sliceFrom first
    (.text (String.ofList piece), locator)

/-- What one locator replies to some questions after each other. -/
def askAll (locator : Locator) : List Query → List Reply
  | [] => []
  | query :: rest => (locator.ask query).1 :: askAll (locator.ask query).2 rest

/-- A sound locator replies what the script says, and it stays sound. -/
theorem Sound.ask {locator : Locator} {script : String} (h : locator.Sound script.toList)
    {query : Query} (hColumns : ∀ position ∈ query.positions, 1 ≤ position.column) :
    (locator.ask query).1 = query.reply script ∧ (locator.ask query).2.Sound script.toList := by
  -- The locator finds the places that the script has, and what stands there are the same bytes.
  cases query with
  | offset position =>
    obtain ⟨hFound, hSound⟩ := find_eq h (hColumns position (by simp [Query.positions]))
    obtain ⟨front, after, -, hPlace, hOffset⟩ := placeOf_at script position
    refine ⟨?_, hSound⟩
    show Reply.offset (locator.find position).1.offset = .offset (byteOffset script position)
    rw [hFound, hPlace, hOffset, Spot.behind, utf8Len_eq_sum]
  | slice first last =>
    obtain ⟨hPiece, hSound⟩ := slice_eq h (hColumns first (by simp [Query.positions]))
      (hColumns last (by simp [Query.positions]))
    refine ⟨?_, hSound⟩
    show Reply.text (String.ofList (locator.slice first last).1) = _
    rw [hPiece, ← extract_placeOf]
    rfl
  | sliceFrom first =>
    have hFirst := hColumns first (by simp [Query.positions])
    refine ⟨?_, (find_eq h hFirst).2⟩
    show Reply.text (String.ofList (locator.sliceFrom first).1) = _
    rw [sliceFrom_eq h hFirst, ← extract_placeOf_end]
    rfl

theorem Sound.askAll {locator : Locator} {script : String} (h : locator.Sound script.toList)
    {queries : List Query}
    (hColumns : ∀ query ∈ queries, ∀ position ∈ query.positions, 1 ≤ position.column) :
    locator.askAll queries = queries.map (Query.reply script) := by
  -- Each question moves the cursor. All that is carried along is that the locator is sound.
  induction queries generalizing locator with
  | nil => rfl
  | cons query rest ih =>
    obtain ⟨hReply, hSound⟩ := h.ask (hColumns query List.mem_cons_self)
    have hRest := ih hSound fun other hOther => hColumns other (List.mem_cons_of_mem _ hOther)
    rw [Locator.askAll, hReply, hRest, List.map_cons]

end Locator

/-- Whatever a locator was asked before, it replies what the script itself says: the offsets that
are read off it and the bytes between them. In particular it finds a place by the position that
reading up to there leads to. -/
theorem askAll_eq_replies {script : String} {queries : List Query}
    (h : ∀ query ∈ queries, ∀ position ∈ query.positions, 1 ≤ position.column) :
    (Locator.ofString script).askAll queries = queries.map (Query.reply script) ∧
      ∀ front after, script.toList = front ++ after →
        (Locator.ofString script).askAll (queries ++ [.offset (Position.start.advanceBy front)]) =
          queries.map (Query.reply script) ++ [.offset (utf8Len front)] := by
  have hSound : (Locator.ofString script).Sound script.toList :=
    Locator.sound_ofChars script.toList
  refine ⟨hSound.askAll h, fun front after hScript => ?_⟩
  -- The last question is about a position that reading leads to, so its column is at least 1 too.
  have hColumns : ∀ query ∈ queries ++ [.offset (Position.start.advanceBy front)],
      ∀ position ∈ query.positions, 1 ≤ position.column := by
    intro query hQuery position hPosition
    rcases List.mem_append.mp hQuery with hOld | hNew
    · exact h query hOld position hPosition
    · rw [List.mem_singleton.mp hNew, Query.positions, List.mem_singleton] at hPosition
      rw [hPosition]
      exact Position.one_le_column_start front
  rw [hSound.askAll hColumns, List.map_append, List.map_singleton, Query.reply,
    byteOffset_advanceBy hScript]

/-- Questions about a short line, an overlong column, line 0, places in the wrong order and places
behind the end, over characters of two bytes and of one. -/
theorem askAll_eq_replies_short_lines :
    (Locator.ofString "é\nab").askAll
        [.slice ⟨1, 2⟩ ⟨2, 2⟩, .offset ⟨1, 3⟩, .offset ⟨0, 2⟩, .slice ⟨2, 1⟩ ⟨1, 1⟩,
          .offset ⟨3, 1⟩, .sliceFrom ⟨1, 4⟩, .offset (Position.start.advanceBy ['é', '\n'])] =
      [.text "\na", .offset 3, .offset 2, .text "", .offset 5, .text "b", .offset 3] := by
  have hBefore := (@askAll_eq_replies "é\nab" [.slice ⟨1, 2⟩ ⟨2, 2⟩, .offset ⟨1, 3⟩,
    .offset ⟨0, 2⟩, .slice ⟨2, 1⟩ ⟨1, 1⟩, .offset ⟨3, 1⟩, .sliceFrom ⟨1, 4⟩] (by decide)).2
    ['é', '\n'] ['a', 'b'] (by decide)
  exact hBefore.trans (by decide +kernel)

end SqlScript
