import SqlScript.Proofs.Split.Concat

/-!
# Work in parts

A splitter goes on behind a cut as at the start of a script, with an empty context and no statement
begun. What it keeps is the cursor of its locator, wherever the positions before the cut have left
it. The answers of a locator do not depend on its cursor, as long as columns are counted from 1, so
nothing passes a cut: tokens are split as their parts are, each part by a splitter of its own. This
holds of any tokens, also of those that go back in the script or stand outside of it.

In column 0 the cursor does make a difference, as the last example shows.

## Results

* `reportTokens_append` — tokens behind a cut are reported on as if they were alone.
* `splitTokens_append`  — hence tokens are split as the parts before and behind a cut.
-/

namespace SqlScript

variable {rules : Rules} {script : String}

/-- Tokens behind a cut are reported on as if they were alone, with the log. -/
theorem reportTokens_append {front : List Token} {mark : Token} {back : List Token}
    (hCut : CutAfter rules script front mark)
    (hFront : ∀ token ∈ front ++ [mark], 1 ≤ token.start.column)
    (hBack : ∀ token ∈ back, 1 ≤ token.start.column) :
    reportTokens rules script (front ++ [mark] ++ back) =
      reportTokens rules script (front ++ [mark]) ++ reportTokens rules script back := by
  have hAll : ∀ token ∈ front ++ [mark] ++ back, 1 ≤ token.start.column := by
    intro token hToken
    exact (List.mem_append.mp hToken).elim (hFront token) (hBack token)
  have hCuts : (contextAfter rules Context.empty (front.map id)).cuts (id mark) := by
    rw [List.map_id]
    exact cutAfter_iff.mp hCut
  -- Each of the three runs is made of the reports on its segments, none of which mentions a cursor.
  rw [reportTokens_eq rules script _ hAll, reportTokens_eq rules script _ hFront,
    reportTokens_eq rules script _ hBack, List.append_assoc]
  exact concat_segments_append hCuts rfl back

/-- Nothing passes a cut: the statements and the problems of some tokens are those of the part up to
the cut and then those of the part behind it, each with a splitter of its own. The tokens need not
be in order, nor be those of the script. -/
theorem splitTokens_append {first second : List Token} (hCut : CutLast rules script first)
    (hFirst : ∀ token ∈ first, 1 ≤ token.start.column)
    (hSecond : ∀ token ∈ second, 1 ≤ token.start.column) :
    splitTokens rules script (first ++ second) =
      (splitTokens rules script first).append (splitTokens rules script second) := by
  obtain ⟨front, mark, rfl, hCut⟩ := hCut
  exact congrArg Report.split (reportTokens_append hCut hFirst hSecond)

/-- The second part goes back in the script, and the first one has left the cursor behind it. -/
theorem splitTokens_append_backwards :
    splitTokens Dialect.hsqldb.rules "one;\ntwo"
        ([⟨"two", .identifier, ⟨2, 1⟩⟩, ⟨"END", .keyword, ⟨2, 2⟩⟩, ⟨";", .terminator, ⟨9, 9⟩⟩] ++
          [⟨"one", .identifier, ⟨1, 1⟩⟩, ⟨"END", .keyword, ⟨1, 2⟩⟩, ⟨";", .terminator, ⟨1, 4⟩⟩]) =
      ⟨#[⟨"two", ⟨2, 1⟩, 1, 0, true⟩, ⟨"one", ⟨1, 1⟩, 1, 0, true⟩],
        #[.unmatchedEnd ⟨2, 2⟩, .unmatchedEnd ⟨1, 2⟩]⟩ := by
  have hCut : CutLast Dialect.hsqldb.rules "one;\ntwo"
      [⟨"two", .identifier, ⟨2, 1⟩⟩, ⟨"END", .keyword, ⟨2, 2⟩⟩, ⟨";", .terminator, ⟨9, 9⟩⟩] :=
    ⟨[⟨"two", .identifier, ⟨2, 1⟩⟩, ⟨"END", .keyword, ⟨2, 2⟩⟩], ⟨";", .terminator, ⟨9, 9⟩⟩, rfl,
      by decide +kernel⟩
  exact (splitTokens_append hCut (by decide) (by decide)).trans (by decide +kernel)

/-- A statement that starts in column 0 leaves the cursor there, and the next one starts one
character too far to the right. -/
example :
    let front : List Token := [⟨"x", .identifier, ⟨1, 0⟩⟩, ⟨";", .terminator, ⟨2, 1⟩⟩]
    let back : List Token := [⟨"y", .identifier, ⟨1, 2⟩⟩]
    (splitTokens Dialect.generic.rules "abc" (front ++ back)).statements =
        #[⟨"abc", ⟨1, 0⟩, 0, 0, true⟩, ⟨"c", ⟨1, 2⟩, 0, 0, false⟩] ∧
      (splitTokens Dialect.generic.rules "abc" back).statements =
        #[⟨"bc", ⟨1, 2⟩, 0, 0, false⟩] := by
  decide +kernel

end SqlScript
