import Mathlib.Data.List.Forall2
import SqlScript.Proofs.Lexeme.Spelling
import SqlScript.Proofs.Locator.Bytes

/-!
# Tokens resolved in their script

A token says where it starts by line and column. A locator of the script turns that into a byte
offset. The two count differently, the tokens along the characters of the lexemes and the locator
along its table of lines, and yet they agree: from the offset of each token up to that of the next
stand exactly the bytes that the token was made from.

The argument follows the tiles of the script. The tokens of a tiling start behind the text of the
tiles in front (`Tiling.start_eq`), reading that text leads to the offset behind it
(`byteOffset_advanceBy`), and so the pieces between the offsets are the sources of the tiles
(`Tiling.piecesAt_eq`).

## Results

* `tokenize_resolved` — the offsets of the tokens cut the script into pieces, and each piece is
  spelled as its token says.
-/

namespace SqlScript

open String (utf8Len)

/-! ## Pieces -/

/-- The pieces of a script from each offset up to the next, the last one up to the end. -/
def piecesAt (script : String) : List Nat → List String
  | [] => []
  | offset :: rest =>
    String.Pos.Raw.extract script ⟨offset⟩ ⟨rest.head?.getD script.utf8ByteSize⟩ ::
      piecesAt script rest

/-- A piece of the script shows of what kind the token is that it was made into. -/
def Token.Shows (token : Token) (piece : String) : Prop :=
  match token.kind with
  | .keyword => upper piece = token.text
  | .terminator => piece = ";"
  | .identifier =>
    piece = token.text ∨ ∃ delimiter ∈ identifierDelimiters, piece.toList.head? = some delimiter
  | .whitespace => ∀ c ∈ piece.toList, isBlank c = true
  | .comment => ∃ mark ∈ commentMarks, mark <+: piece.toList
  | .literal | .operator => ∃ c, piece.toList.head? = some c ∧ isBlank c = false

/-- The token of a lexeme is shown by what the lexeme was read from. -/
theorem Tile.shows_of_spelled {rules : Rules} {start : Position} {qualified : Bool} {tile : Tile}
    (hToken : tile.token = .ofLexeme rules start qualified tile.lexeme) (hGenuine : tile.Genuine)
    (hSpelled : tile.lexeme.Spelled) : tile.token.Shows (String.ofList tile.lexeme.source) := by
  obtain ⟨lexeme, token⟩ := tile
  dsimp only at hToken hSpelled ⊢
  have hHead : token.isTrivia = false →
      ∃ c, (String.ofList lexeme.source).toList.head? = some c ∧ isBlank c = false := by
    intro hTrivia
    rw [String.toList_ofList]
    cases hSource : lexeme.source with
    | nil => exact absurd hSource hGenuine.ne_nil
    | cons c rest =>
      exact ⟨c, rfl, hGenuine.head hTrivia c (by simp [hSource])⟩
  subst hToken
  rw [Token.isTrivia_ofLexeme] at hHead
  unfold Lexeme.Spelled at hSpelled
  unfold Token.Shows Token.ofLexeme Lexeme.classify
  cases hKind : lexeme.kind with
  | word =>
    rw [hKind] at hSpelled
    dsimp only at hSpelled ⊢
    -- Only a keyword is not shown as it is written.
    by_cases hReserved : ¬ qualified = true ∧ rules.isKeyword (String.ofList lexeme.text) = true
    · rw [if_pos hReserved]
      exact congrArg (fun source => upper (String.ofList source)) hSpelled
    · rw [if_neg hReserved]
      exact .inl (congrArg String.ofList hSpelled)
  | delimited =>
    rw [hKind] at hSpelled
    obtain ⟨delimiter, hDelimiter, body, hSource⟩ := hSpelled
    exact .inr ⟨delimiter, hDelimiter, by rw [hSource]; simp⟩
  | terminator =>
    rw [hKind] at hSpelled
    exact congrArg String.ofList hSpelled
  | blank =>
    rw [hKind] at hSpelled
    dsimp only at hSpelled ⊢
    rw [String.toList_ofList]
    exact hSpelled
  | comment =>
    rw [hKind] at hSpelled
    dsimp only at hSpelled ⊢
    rw [String.toList_ofList]
    exact hSpelled
  | literal => exact hHead (by simp [hKind])
  | operator => exact hHead (by simp [hKind])
  | period => exact hHead (by simp [hKind])

/-- The tiles of the lexemes of a script are shown by their sources. -/
theorem Tile.shows_of_mem {rules : Rules} {position : Position} {afterPeriod : Bool}
    {lexemes : List Lexeme} {after : List Char} (h : Lexes lexemes after) {tile : Tile}
    (hMem : tile ∈ ofLexemesAfter rules position afterPeriod lexemes) :
    tile.token.Shows (String.ofList tile.lexeme.source) := by
  obtain ⟨start, qualified, hToken⟩ := token_of_mem hMem
  have hGenuine := (tiling_ofLexemesAfter rules position afterPeriod h).genuine hMem
  have hLexeme : tile.lexeme ∈ lexemes := by
    rw [← map_lexeme_ofLexemesAfter rules position afterPeriod lexemes]
    exact List.mem_map_of_mem hMem
  -- The lexeme was read where the lexemes in front of it end.
  obtain ⟨front, back, rfl⟩ := List.append_of_mem hLexeme
  obtain ⟨⟨c, taken, -, hRead⟩, -⟩ := (lexes_append.mp h).2
  exact shows_of_spelled hToken hGenuine (readLexeme_spelled hRead)

/-! ## Offsets along a tiling -/

section Offsets

variable {script : String} {before : List Char} {tile : Tile} {rest tiles : List Tile}

/-- The first tile starts behind what stands in front of it and is not empty, and the others follow
behind it. -/
theorem Tiling.first (hScript : script.toList = before ++ textOf (tile :: rest))
    (h : Tiling (Position.start.advanceBy before) (tile :: rest)) :
    byteOffset script tile.token.start = utf8Len before ∧
      utf8Len before < utf8Len (before ++ tile.lexeme.source) ∧
      script.toList = before ++ tile.lexeme.source ++ textOf rest ∧
      Tiling (Position.start.advanceBy (before ++ tile.lexeme.source)) rest := by
  obtain ⟨⟨hStart, hGenuine⟩, hRest⟩ := h
  refine ⟨?_, ?_, ?_, ?_⟩
  · rw [hStart, byteOffset_advanceBy hScript]
  · -- A tile has a first character, so the next one starts further on.
    have hPositive : utf8Len tile.lexeme.source ≠ 0 :=
      fun hZero => hGenuine.ne_nil (String.utf8Len_eq_zero.mp hZero)
    rw [String.utf8Len_append]
    omega
  · rw [hScript, textOf_cons, List.append_assoc]
  · rw [Position.advanceBy_append]
    exact hRest

/-- Every tile starts somewhere behind what stands in front of them all, and before the end. -/
theorem Tiling.byteOffset_bounds (hScript : script.toList = before ++ textOf tiles)
    (h : Tiling (Position.start.advanceBy before) tiles) :
    ∀ tile ∈ tiles, utf8Len before ≤ byteOffset script tile.token.start ∧
      byteOffset script tile.token.start < script.utf8ByteSize := by
  induction tiles generalizing before with
  | nil => nofun
  | cons first rest ih =>
    obtain ⟨hOffset, hLonger, hSplit, hRest⟩ := h.first hScript
    intro tile hMem
    -- The first tile starts where the text before it ends, and it ends within the script.
    rcases List.mem_cons.mp hMem with rfl | hLater
    · have hSize : utf8Len (before ++ tile.lexeme.source) ≤ script.utf8ByteSize := by
        rw [← String.utf8Len_toList, hSplit, String.utf8Len_append (before ++ _)]
        omega
      omega
    · have hBounds := ih hSplit hRest tile hLater
      omega

/-- The tiles start one behind the other. -/
theorem Tiling.pairwise_byteOffset (hScript : script.toList = before ++ textOf tiles)
    (h : Tiling (Position.start.advanceBy before) tiles) :
    (tiles.map fun tile => byteOffset script tile.token.start).Pairwise (· < ·) := by
  induction tiles generalizing before with
  | nil => exact List.Pairwise.nil
  | cons tile rest ih =>
    obtain ⟨hOffset, hLonger, hSplit, hRest⟩ := h.first hScript
    rw [List.map_cons, List.pairwise_cons]
    refine ⟨?_, ih hSplit hRest⟩
    intro offset hMem
    obtain ⟨other, hOther, rfl⟩ := List.mem_map.mp hMem
    have hLater := (hRest.byteOffset_bounds hSplit other hOther).1
    omega

/-- Between the offsets of the tiles stand their sources. -/
theorem Tiling.piecesAt_eq (hScript : script.toList = before ++ textOf tiles)
    (h : Tiling (Position.start.advanceBy before) tiles) :
    piecesAt script (tiles.map fun tile => byteOffset script tile.token.start) =
      tiles.map fun tile => String.ofList tile.lexeme.source := by
  induction tiles generalizing before with
  | nil => rfl
  | cons tile rest ih =>
    obtain ⟨hOffset, -, hSplit, hRest⟩ := h.first hScript
    -- The piece ends where the next tile starts, or with the script.
    have hEnd : (rest.map fun tile => byteOffset script tile.token.start).head?.getD
        script.utf8ByteSize = utf8Len before + utf8Len tile.lexeme.source := by
      rw [← String.utf8Len_append]
      cases rest with
      | nil =>
        show script.utf8ByteSize = _
        rw [← String.utf8Len_toList, hSplit, textOf_nil, List.append_nil]
      | cons next rest => exact (hRest.first hSplit).1
    rw [List.map_cons, List.map_cons, piecesAt, ih hSplit hRest, hEnd, hOffset,
      extract_of_append hSplit]

end Offsets

/-! ## The tokens of a script -/

/-- The tokens of a script are found again by their positions, in any order. Their offsets go up
from 0 and stay within the script, so they cut it into pieces, and each piece shows its token. -/
theorem tokenize_resolved {rules : Rules} {script : String} {tokens : List Token}
    (h : tokenize rules script = .ok tokens) :
    let offsets := tokens.map fun token => byteOffset script token.start
    let pieces := piecesAt script offsets
    (∀ order ⊆ tokens,
      (Locator.ofString script).askAll (order.map fun token => .offset token.start) =
        order.map fun token => .offset (byteOffset script token.start)) ∧
      offsets.Pairwise (· < ·) ∧ (∀ first ∈ offsets.head?, first = 0) ∧
      (∀ offset ∈ offsets, offset < script.utf8ByteSize) ∧
      String.join pieces = script ∧ List.Forall₂ Token.Shows tokens pieces := by
  obtain ⟨lexemes, hLex, rfl⟩ := lexes_of_tokenize h
  obtain ⟨hLexes, hSource⟩ := lexes_of_lex hLex
  -- Apart from what the tokens show, all that matters is that the script is tiled.
  generalize hTiles : Tile.ofLexemesAfter rules Position.start false lexemes = tiles
  have hTiling : Tiling (Position.start.advanceBy []) tiles := by
    rw [← hTiles]
    exact tiling_ofLexemesAfter rules Position.start false hLexes
  have hScript : script.toList = [] ++ textOf tiles := by
    rw [← hTiles, Tile.textOf_ofLexemesAfter, hSource]
    rfl
  have hTokens : Token.ofLexemes rules lexemes = tiles.map Tile.token := by
    rw [← hTiles, Tile.map_token_ofLexemesAfter]
    rfl
  have hShows : ∀ tile ∈ tiles, tile.token.Shows (String.ofList tile.lexeme.source) := by
    rw [← hTiles]
    exact fun tile hMem => Tile.shows_of_mem hLexes hMem
  dsimp only
  rw [hTokens, List.map_map, Function.comp_def, hTiling.piecesAt_eq hScript]
  refine ⟨?_, hTiling.pairwise_byteOffset hScript, ?_, ?_, ?_, ?_⟩
  · intro order hOrder
    have hSound : (Locator.ofString script).Sound script.toList :=
      Locator.sound_ofChars script.toList
    rw [hSound.askAll, List.map_map]
    · rfl
    · intro query hQuery position hPosition
      obtain ⟨token, hToken, rfl⟩ := List.mem_map.mp hQuery
      obtain ⟨tile, hTile, rfl⟩ := List.mem_map.mp (hOrder hToken)
      obtain ⟨front, back, rfl⟩ := List.append_of_mem hTile
      rw [List.mem_singleton.mp hPosition, hTiling.start_eq, ← Position.advanceBy_append]
      exact Position.one_le_column_start _
  · intro first hFirst
    cases tiles with
    | nil => cases hFirst
    | cons tile rest =>
      rw [← Option.mem_some_iff.mp hFirst]
      show byteOffset script tile.token.start = 0
      rw [(hTiling.first hScript).1, String.utf8Len_nil]
  · intro offset hOffset
    obtain ⟨tile, hTile, rfl⟩ := List.mem_map.mp hOffset
    exact (hTiling.byteOffset_bounds hScript tile hTile).2
  · rw [← String.toList_inj, String.toList_join, hScript]
    simp [textOf, sourceOf, List.flatMap_map]
  · rw [List.forall₂_map_left_iff, List.forall₂_map_right_iff, List.forall₂_same]
    exact hShows

/-- A delimited identifier with a doubled delimiter, a string over two lines and a comment, looked
up from the last one to the first. -/
theorem tokenize_resolved_lines :
    let script := "\x22é\x22\x22\x22;\n'\r\n'1--"
    let tokens : List Token := [⟨"é\x22", .identifier, ⟨1, 1⟩⟩, ⟨";", .terminator, ⟨1, 6⟩⟩,
      ⟨"\n", .whitespace, ⟨1, 7⟩⟩, ⟨"'\r\n'", .literal, ⟨2, 1⟩⟩, ⟨"1", .literal, ⟨3, 2⟩⟩,
      ⟨"--", .comment, ⟨3, 3⟩⟩]
    let pieces := ["\x22é\x22\x22\x22", ";", "\n", "'\r\n'", "1", "--"]
    tokenize Dialect.hsqldb.rules script = .ok tokens ∧
      (Locator.ofString script).askAll (tokens.reverse.map fun token => .offset token.start) =
        [.offset 13, .offset 12, .offset 8, .offset 7, .offset 6, .offset 0] ∧
      List.Forall₂ Token.Shows tokens pieces := by
  intro script tokens pieces
  have hTokens : tokenize Dialect.hsqldb.rules script = .ok tokens := by decide +kernel
  obtain ⟨hOrder, -, -, -, -, hShows⟩ := tokenize_resolved hTokens
  -- The tokens are looked up from the last to the first, so each look-up goes back.
  refine ⟨hTokens, (hOrder tokens.reverse ?_).trans (by decide +kernel), ?_⟩
  · exact fun token hToken => List.mem_reverse.mp hToken
  · have hPieces : piecesAt script (tokens.map fun token => byteOffset script token.start) =
        pieces := by decide +kernel
    rw [← hPieces]
    exact hShows

end SqlScript
