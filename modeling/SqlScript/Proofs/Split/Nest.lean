import SqlScript.Proofs.Block.Couple
import SqlScript.Proofs.Split.Layout

/-!
# Segments within segments

A script can be cut in two ways, of which one cuts wherever the other does. The segments of the
finer way then lie within those of the coarser one. `Nests` says how the two lists of segments go
together, item by item: a cut that both make ends a segment in both, a cut that only the finer way
makes is an item of the coarser segment, and every other item belongs to a segment of both.

The two ways may see the same items as different tokens, since a word that is reserved in one
dialect may be a name in another.

## Results

* `nests_segmentsFrom` — if one way cuts wherever the other does, their segments nest.
* `Nests.standsIn`     — a segment of the finer way stands within one of the coarser way.
-/

namespace SqlScript

variable {α : Type}

/-! ## Nested segments -/

/-- The first segments are joined from the second ones. -/
inductive Nests : List (Segment α) → List (Segment α) → Prop
  /-- Behind the last cut nothing is left. -/
  | last : Nests [⟨[], none⟩] [⟨[], none⟩]
  /-- Both ways cut at a mark. -/
  | both {coarse fine : List (Segment α)} (mark : α) (h : Nests coarse fine) :
      Nests (⟨[], some mark⟩ :: coarse) (⟨[], some mark⟩ :: fine)
  /-- Only the finer way cuts at a mark, which goes to the segment of the other way. -/
  | finer {segment : Segment α} {coarse fine : List (Segment α)} (mark : α)
      (h : Nests (segment :: coarse) fine) :
      Nests (segment.push mark :: coarse) (⟨[], some mark⟩ :: fine)
  /-- Neither way cuts, and the item goes to a segment of both. -/
  | neither {segment part : Segment α} {coarse fine : List (Segment α)} (item : α)
      (h : Nests (segment :: coarse) (part :: fine)) :
      Nests (segment.push item :: coarse) (part.push item :: fine)

/-- The items that come after some others stand together in one of the segments. -/
def StandsIn (front part : List α) (segments : List (Segment α)) : Prop :=
  ∃ before segment later lead trail, segments = before ++ segment :: later ∧
    segment.items = lead ++ part ++ trail ∧ front = before.flatMap Segment.all ++ lead

namespace StandsIn

variable {front part : List α} {segment : Segment α} {others : List (Segment α)}

theorem cut (h : StandsIn front part others) (mark : α) :
    StandsIn (mark :: front) part (⟨[], some mark⟩ :: others) := by
  obtain ⟨before, segment, later, lead, trail, rfl, hItems, rfl⟩ := h
  exact ⟨⟨[], some mark⟩ :: before, segment, later, lead, trail, rfl, hItems, rfl⟩

/-- An item in front of all goes to the first segment, which may be the one looked for. -/
theorem push (h : StandsIn front part (segment :: others)) (item : α) :
    StandsIn (item :: front) part (segment.push item :: others) := by
  obtain ⟨before, found, later, lead, trail, hSegments, hItems, rfl⟩ := h
  cases before with
  | nil =>
    obtain ⟨rfl, rfl⟩ := List.cons.inj hSegments
    have hPushed : (segment.push item).items = item :: lead ++ part ++ trail :=
      congrArg (item :: ·) hItems
    exact ⟨[], segment.push item, others, item :: lead, trail, rfl, hPushed, rfl⟩
  | cons first before =>
    obtain ⟨rfl, rfl⟩ := List.cons.inj hSegments
    exact ⟨segment.push item :: before, found, later, lead, trail, rfl, hItems, rfl⟩

end StandsIn

namespace Nests

variable {segment part : Segment α} {coarse fine : List (Segment α)}

/-- The first segment starts with the first one of those that it is joined from. -/
theorem head_isPrefix (h : Nests (segment :: coarse) (part :: fine)) :
    part.items <+: segment.items := by
  -- The induction is on how the lists nest, so their shapes are kept as equations.
  generalize hCoarse : segment :: coarse = segments at h
  generalize hFine : part :: fine = parts at h
  induction h generalizing segment coarse part fine with
  | last =>
    obtain ⟨rfl, -⟩ := List.cons.inj hFine
    exact List.nil_prefix
  | both mark h ih =>
    obtain ⟨rfl, -⟩ := List.cons.inj hFine
    exact List.nil_prefix
  | finer mark h ih =>
    obtain ⟨rfl, -⟩ := List.cons.inj hFine
    exact List.nil_prefix
  | neither item h ih =>
    obtain ⟨rfl, -⟩ := List.cons.inj hCoarse
    obtain ⟨rfl, -⟩ := List.cons.inj hFine
    exact List.cons_prefix_cons.mpr ⟨rfl, ih rfl rfl⟩

/-- Each of the segments that others are joined from stands in one of these. -/
theorem standsIn {segments parts : List (Segment α)} (h : Nests segments parts)
    {before later : List (Segment α)} (hParts : parts = before ++ part :: later) :
    StandsIn (before.flatMap Segment.all) part.items segments := by
  -- In each case the segment looked for is the first one, or it is found in the rest and what is
  -- put in front of all goes to the segments before it or to its own lead.
  induction h generalizing before part later with
  | last =>
    cases before with
    | nil =>
      obtain ⟨rfl, rfl⟩ := List.cons.inj hParts
      exact ⟨[], _, [], [], [], rfl, rfl, rfl⟩
    | cons first before => simp at hParts
  | both mark h ih =>
    cases before with
    | nil =>
      obtain ⟨rfl, rfl⟩ := List.cons.inj hParts
      exact ⟨[], _, _, [], [], rfl, rfl, rfl⟩
    | cons first before =>
      obtain ⟨rfl, hRest⟩ := List.cons.inj hParts
      exact (ih hRest).cut mark
  | @finer segment coarse fine mark h ih =>
    cases before with
    | nil =>
      obtain ⟨rfl, rfl⟩ := List.cons.inj hParts
      exact ⟨[], _, _, [], mark :: segment.items, rfl, rfl, rfl⟩
    | cons first before =>
      obtain ⟨rfl, hRest⟩ := List.cons.inj hParts
      exact (ih hRest).push mark
  | @neither segment first coarse fine item h ih =>
    cases before with
    | nil =>
      obtain ⟨rfl, rfl⟩ := List.cons.inj hParts
      -- The first segment of the finer way may end where that of the coarser way goes on.
      obtain ⟨trail, hTrail⟩ := h.head_isPrefix
      exact ⟨[], _, _, [], trail, rfl, congrArg (item :: ·) hTrail.symm, rfl⟩
    | cons other before =>
      obtain ⟨rfl, hRest⟩ := List.cons.inj hParts
      have hShorter : first :: fine = (first :: before) ++ part :: later :=
        congrArg (first :: ·) hRest
      exact (ih hShorter).push item

end Nests

/-! ## Finer cuts -/

section Cuts

variable (coarse fine : Rules) (token token' : α → Token)

/-- Where the first rules end a statement, the second ones do so too. -/
def CutsRefined (first second : Context) : List α → Prop
  | [] => True
  | item :: rest =>
    (first.cuts (token item) → second.cuts (token' item)) ∧
      CutsRefined (first.next coarse (token item)) (second.next fine (token' item)) rest

variable {coarse fine token token'}

/-- If one way cuts wherever the other does, the segments nest. -/
theorem nests_segmentsFrom {first second : Context} {items : List α}
    (h : CutsRefined coarse fine token token' first second items) :
    Nests (segmentsFrom coarse token first items) (segmentsFrom fine token' second items) := by
  induction items generalizing first second with
  | nil => exact .last
  | cons item rest ih =>
    obtain ⟨hCuts, hRest⟩ := h
    have hNests := ih hRest
    unfold Context.next at hNests
    rw [segmentsFrom, segmentsFrom]
    -- The item is a cut for both, only for the finer one, or for neither. A coarse cut alone is
    -- ruled out by the hypothesis.
    by_cases hFirst : first.cuts (token item)
    · rw [if_pos hFirst, if_pos (hCuts hFirst)] at hNests ⊢
      exact .both item hNests
    · rw [if_neg hFirst] at hNests ⊢
      obtain ⟨segment, others, hCoarse⟩ :=
        segmentsFrom_ne_nil coarse token (first.feed coarse (token item)) rest
      rw [hCoarse] at hNests ⊢
      by_cases hSecond : second.cuts (token' item)
      · rw [if_pos hSecond] at hNests ⊢
        exact .finer item hNests
      · rw [if_neg hSecond] at hNests ⊢
        obtain ⟨part, parts, hFine⟩ :=
          segmentsFrom_ne_nil fine token' (second.feed fine (token' item)) rest
        rw [hFine] at hNests ⊢
        exact .neither item hNests

end Cuts

end SqlScript
