import SqlScript.Text

/-!
# Finite sets of words

A `WordSet` keeps its words in strictly ascending order, so that a set has one representation
only: two sets with the same words are equal. Reserved words and the names of schema objects are
kept in such sets.

* `ofAscending` takes a list that is in order already, as the tables of reserved words are;
* `mem_insert` and `mem_insertMany` say which words a set holds;
* `WordSet.ext` says that a set is determined by its words.
-/

namespace SqlScript

/-- A finite set of words, kept in strictly ascending order. -/
structure WordSet where
  words : List String
  ascending : words.Pairwise (· < ·)
  deriving DecidableEq

namespace WordSet

/-- The list with a word put in its place, unless it is there already. -/
def insertWord (word : String) : List String → List String
  | [] => [word]
  | first :: rest =>
    if word = first then first :: rest
    else if word < first then word :: first :: rest
    else first :: insertWord word rest

/-- Putting a word in its place adds that word and no other. -/
theorem mem_insertWord {word other : String} {words : List String} :
    other ∈ insertWord word words ↔ other = word ∨ other ∈ words := by
  induction words with
  | nil => simp [insertWord]
  | cons first rest ih =>
    unfold insertWord
    split
    · next h => subst h; simp
    · split
      · simp
      · simp only [List.mem_cons, ih]; grind

/-- A word goes in front of the first one that is above it, so the list stays in order. -/
theorem ascending_insertWord (word : String) {words : List String}
    (h : words.Pairwise (· < ·)) : (insertWord word words).Pairwise (· < ·) := by
  induction words with
  | nil => simp [insertWord]
  | cons first rest ih =>
    obtain ⟨hFirst, hRest⟩ := List.pairwise_cons.mp h
    unfold insertWord
    split
    · exact h
    · next hNe =>
      split
      · next hLt =>
        refine List.pairwise_cons.mpr ⟨fun other hOther => ?_, h⟩
        rcases List.mem_cons.mp hOther with rfl | hMem
        · exact hLt
        · exact String.lt_trans hLt (hFirst other hMem)
      · next hNotLt =>
        refine List.pairwise_cons.mpr ⟨fun other hOther => ?_, ih hRest⟩
        rcases mem_insertWord.mp hOther with rfl | hMem
        · grind
        · exact hFirst other hMem

/-- Whether some words are ASCII texts in strictly ascending order, as seen from their bytes. -/
def isAscending : List String → Bool
  | [] => true
  | [word] => isAscii word
  | first :: second :: rest =>
    isAscii first && decide (bytes first < bytes second) && isAscending (second :: rest)

theorem isAscii_of_isAscending {first : String} {rest : List String}
    (h : isAscending (first :: rest) = true) : isAscii first = true := by
  cases rest with
  | nil => exact h
  | cons second others =>
    rw [isAscending, Bool.and_eq_true, Bool.and_eq_true] at h
    exact h.1.1

/-- ASCII texts are in the order of their bytes, so it is enough to look at each word and the next.
-/
theorem ascending_of_isAscending {words : List String} (h : isAscending words = true) :
    words.Pairwise (· < ·) := by
  induction words with
  | nil => exact List.Pairwise.nil
  | cons first rest ih =>
    cases rest with
    | nil => exact List.pairwise_singleton _ first
    | cons second others =>
      rw [isAscending, Bool.and_eq_true, Bool.and_eq_true, decide_eq_true_iff] at h
      obtain ⟨⟨hFirst, hBytes⟩, hRest⟩ := h
      have hLt := lt_of_bytes_lt hFirst (isAscii_of_isAscending hRest) hBytes
      have hOthers := ih hRest
      -- What is behind the second word is above it, and so above the first.
      refine List.pairwise_cons.mpr ⟨fun word hWord => ?_, hOthers⟩
      rcases List.mem_cons.mp hWord with rfl | hLater
      · exact hLt
      · exact String.lt_trans hLt ((List.pairwise_cons.mp hOthers).1 word hLater)

/-- The set without words. -/
def empty : WordSet := ⟨[], List.Pairwise.nil⟩

instance : EmptyCollection WordSet := ⟨empty⟩

instance : Inhabited WordSet := ⟨empty⟩

instance : Membership String WordSet := ⟨fun set word => word ∈ set.words⟩

instance (word : String) (set : WordSet) : Decidable (word ∈ set) :=
  inferInstanceAs (Decidable (word ∈ set.words))

/-- The set with one more word. -/
def insert (set : WordSet) (word : String) : WordSet :=
  ⟨insertWord word set.words, ascending_insertWord word set.ascending⟩

/-- The set with the words of a list added. -/
def insertMany (set : WordSet) (words : List String) : WordSet := words.foldl insert set

/-- The set of the words of a list in ascending order. -/
def ofAscending (words : List String) (h : isAscending words = true) : WordSet :=
  ⟨words, ascending_of_isAscending h⟩

/-- Whether a word, as it is spelled, belongs to the set. -/
def contains (set : WordSet) (word : String) : Bool := set.words.contains word

/-- The words that begin with a text, in ascending order. -/
def startingWith (set : WordSet) (start : String) : List String :=
  set.words.filter fun word => start.toList.isPrefixOf word.toList

/-- The number of words. -/
def size (set : WordSet) : Nat := set.words.length

/-- Whether the set has no words. -/
def isEmpty (set : WordSet) : Bool := set.words.isEmpty

/-! ## Which words a set holds -/

theorem mem_def {word : String} {set : WordSet} : word ∈ set ↔ word ∈ set.words := Iff.rfl

@[simp] theorem not_mem_empty (word : String) : word ∉ (∅ : WordSet) := List.not_mem_nil

@[simp] theorem contains_eq_true_iff {set : WordSet} {word : String} :
    set.contains word = true ↔ word ∈ set := by
  simp [contains, mem_def]

@[simp] theorem mem_insert {word other : String} {set : WordSet} :
    other ∈ set.insert word ↔ other = word ∨ other ∈ set := mem_insertWord

/-- Adding the words of a list adds these words and no others. -/
@[simp] theorem mem_insertMany {words : List String} {word : String} {set : WordSet} :
    word ∈ set.insertMany words ↔ word ∈ words ∨ word ∈ set := by
  induction words generalizing set with
  | nil => simp [insertMany]
  | cons first rest ih =>
    have := @ih (set.insert first)
    simp only [insertMany, List.foldl_cons, mem_insert] at this ⊢
    rw [this, List.mem_cons]
    grind

/-! ## Equality -/

/-- Ascending lists with the same words are equal. -/
theorem eq_of_ascending {first second : List String} (hFirst : first.Pairwise (· < ·))
    (hSecond : second.Pairwise (· < ·)) (h : ∀ word, word ∈ first ↔ word ∈ second) :
    first = second := by
  induction first generalizing second with
  | nil =>
    cases second with
    | nil => rfl
    | cons word rest => simpa using h word
  | cons word rest ih =>
    obtain ⟨hWord, hRest⟩ := List.pairwise_cons.mp hFirst
    cases second with
    | nil => simpa using h word
    | cons other others =>
      obtain ⟨hOther, hOthers⟩ := List.pairwise_cons.mp hSecond
      -- Each of the two heads is the least word of both lists.
      have hHead : word = other := by
        have hWordMem := (h word).mp List.mem_cons_self
        have hOtherMem := (h other).mpr List.mem_cons_self
        rcases List.mem_cons.mp hWordMem with hEq | hMem
        · exact hEq
        · rcases List.mem_cons.mp hOtherMem with hEq | hMem'
          · exact hEq.symm
          · exact absurd (String.lt_trans (hWord other hMem') (hOther word hMem))
              (String.lt_irrefl word)
      subst hHead
      refine congrArg (word :: ·) (ih hRest hOthers fun w => ?_)
      -- The head is below every word of either tail, so the tails agree where the lists do.
      have hW := h w
      have hIrrefl := String.lt_irrefl word
      simp only [List.mem_cons] at hW
      constructor
      · intro hMem
        rcases hW.mp (.inr hMem) with rfl | hMem'
        · exact absurd (hWord w hMem) hIrrefl
        · exact hMem'
      · intro hMem
        rcases hW.mpr (.inr hMem) with rfl | hMem'
        · exact absurd (hOther w hMem) hIrrefl
        · exact hMem'

/-- A set is determined by its words. -/
theorem ext {first second : WordSet} (h : ∀ word, word ∈ first ↔ word ∈ second) :
    first = second := by
  cases first with
  | mk firstWords hFirst =>
    cases second with
    | mk secondWords hSecond =>
      have hEq : firstWords = secondWords := eq_of_ascending hFirst hSecond h
      subst hEq
      rfl

end WordSet

end SqlScript
