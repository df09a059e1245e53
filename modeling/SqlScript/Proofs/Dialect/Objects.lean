import Mathlib.Data.Finset.Card
import SqlScript.Dialect.Rules
import SqlScript.Proofs.Lexeme.Letters
import SqlScript.Proofs.Text.Trim

/-!
# Sets of modifiable objects

A dialect comes with the names of some kinds of schema object, and batches of further names can be
added. What counts of a name is its normal form, without blank ends and in upper case; a name of
which nothing is left does not count. So it cannot be told from a set of objects in which order and
in which batches the names came, how often, in which letter case and between which blanks.

A query is not taken for a name: it is put in upper case, but its blanks stay. `Gathers` says of a
set how it answers queries and how many objects it has, given the names that went into it. A batch
of names keeps this (`Gathers.extend`), and so do any number of batches (`Gathers.extendAll`, by
induction). Since the answers and the number leave no room for other words in the set
(`gathers_iff`), sets that gather names with the same normal forms are equal.

## Results

* `sameName_iff`            — names have the same normal form if and only if they differ in letter
  case and blank ends only.
* `Gathers.extendAll`       — batches of names add their names, and nothing else.
* `Gathers.eq_iff`          — sets are equal if and only if their names have the same normal forms.
* `Rules.delta_conditional` — `IF` opens a block unless it follows `END` or an object.
* `objects_gathered`        — hence objects are a union of normal forms, however they are built.
-/

namespace SqlScript

/-! ## Names -/

/-- The names differ in the case of letters and in the blanks around them only. -/
def SameName (first second : String) : Prop :=
  ∃ text other, IsPadded first.toList text ∧ IsPadded second.toList other ∧ SameLetters text other

/-- A name is trimmed and then put in upper case. -/
theorem toList_normalName (name : String) :
    (normalName name).toList = (trimChars name.toList).map Char.toUpper := by
  unfold normalName trim
  rw [toList_upper, String.toList_ofList]

/-- All that the normal form of a name leaves out is its letter case and the blanks around it. -/
theorem sameName_iff {first second : String} :
    SameName first second ↔ normalName first = normalName second := by
  rw [← String.toList_inj, toList_normalName, toList_normalName]
  constructor
  · rintro ⟨text, other, hFirst, hSecond, hSame⟩
    rw [hFirst.trimChars_eq, hSecond.trimChars_eq]
    exact hSame.trimChars
  · intro hSame
    exact ⟨_, _, isPadded_trimChars _, isPadded_trimChars _, hSame⟩

instance (first second : String) : Decidable (SameName first second) :=
  decidable_of_iff _ sameName_iff.symm

/-- The normal form of a name is blank only if the name is. -/
theorem normalName_eq_empty_iff {name : String} : normalName name = "" ↔ trim name = "" := by
  unfold normalName
  rw [← String.toList_inj, ← String.toList_inj, toList_upper]
  exact List.map_eq_nil_iff

/-- The names are among the others, perhaps written otherwise, unless they are blank. -/
def NamesAmong (names others : List String) : Prop :=
  ∀ name ∈ names, trim name = "" ∨ ∃ other ∈ others, SameName name other

instance (names others : List String) : Decidable (NamesAmong names others) :=
  inferInstanceAs
    (Decidable (∀ name ∈ names, trim name = "" ∨ ∃ other ∈ others, SameName name other))

/-! ## Normal forms -/

/-- The normal forms of some names, without the blank one. -/
def normalForms (names : List String) : Finset String := (names.map normalName).toFinset.erase ""

theorem mem_normalForms {names : List String} {word : String} :
    word ∈ normalForms names ↔ word ≠ "" ∧ ∃ name ∈ names, normalName name = word := by
  simp [normalForms]

/-- More names add their normal forms. -/
theorem normalForms_append (names more : List String) :
    normalForms (names ++ more) = normalForms names ∪ normalForms more := by
  unfold normalForms
  rw [List.map_append, List.toFinset_append, Finset.erase_union_distrib]

/-- Normal forms are in upper case already. -/
theorem upper_of_mem_normalForms {names : List String} {word : String}
    (h : word ∈ normalForms names) : upper word = word := by
  obtain ⟨-, name, -, rfl⟩ := mem_normalForms.mp h
  exact upper_upper (trim name)

/-- Normal forms are among others if each name is blank or is the same as one of the others. -/
theorem normalForms_subset_iff {names others : List String} :
    normalForms names ⊆ normalForms others ↔ NamesAmong names others := by
  constructor
  · intro h name hName
    refine or_iff_not_imp_left.mpr fun hNe => ?_
    have hForm : normalName name ∈ normalForms names :=
      mem_normalForms.mpr ⟨mt normalName_eq_empty_iff.mp hNe, name, hName, rfl⟩
    obtain ⟨-, other, hOther, hSame⟩ := mem_normalForms.mp (h hForm)
    exact ⟨other, hOther, sameName_iff.mpr hSame.symm⟩
  · intro h word hWord
    obtain ⟨hNe, name, hName, rfl⟩ := mem_normalForms.mp hWord
    -- The word is not the blank one, so the name that it comes from is not blank either.
    have hTrim : trim name ≠ "" := mt normalName_eq_empty_iff.mpr hNe
    obtain ⟨other, hOther, hSame⟩ := (h name hName).resolve_left hTrim
    exact mem_normalForms.mpr ⟨hNe, other, hOther, (sameName_iff.mp hSame).symm⟩

/-- How names are written, in which order and how often, does not matter to their normal forms. -/
theorem normalForms_eq_iff {names others : List String} :
    normalForms names = normalForms others ↔ NamesAmong names others ∧ NamesAmong others names := by
  rw [← normalForms_subset_iff, ← normalForms_subset_iff]
  exact Finset.Subset.antisymm_iff

/-! ## Sets of words -/

/-- Words in strictly ascending order are different. -/
theorem WordSet.nodup (set : WordSet) : set.words.Nodup := by
  refine set.ascending.imp ?_
  rintro word _ hLt rfl
  exact String.lt_irrefl word hLt

/-- So the number of words that a set keeps is the number of words in it. -/
theorem WordSet.card_toFinset (set : WordSet) : set.words.toFinset.card = set.size :=
  List.toFinset_card_of_nodup set.nodup

/-! ## Sets of objects -/

namespace ModifiableObjects

variable {objects others : ModifiableObjects} {names more : List String}

theorem mem_normalNames {word : String} : word ∈ normalNames names ↔ word ∈ normalForms names := by
  rw [mem_normalForms]
  simp [normalNames, and_comm]

/-- A set with more names holds the normal forms of these names and the words that were in it. -/
theorem mem_names_extend {word : String} :
    word ∈ (objects.extend more).names ↔ word ∈ normalForms more ∨ word ∈ objects.names := by
  rw [← mem_normalNames]
  exact WordSet.mem_insertMany

/-- A set with more names holds their normal forms and the names that were in it. -/
theorem contains_extend_iff {word : String} : (objects.extend more).contains word = true ↔
    upper word ∈ normalForms more ∨ objects.contains word = true := by
  unfold contains
  rw [WordSet.contains_eq_true_iff, WordSet.contains_eq_true_iff]
  exact mem_names_extend

/-- It still holds the names that were in it. -/
theorem contains_extend {word : String} (more : List String) (h : objects.contains word = true) :
    (objects.extend more).contains word = true :=
  contains_extend_iff.mpr (.inr h)

/-- The set with the names of batches added, one batch after the other. -/
def extendAll (objects : ModifiableObjects) (batches : List (List String)) : ModifiableObjects :=
  batches.foldl extend objects

/-- The objects are those that the names stand for. -/
structure Gathers (objects : ModifiableObjects) (names : List String) : Prop where
  /-- A query is put in upper case but not trimmed. -/
  contains_iff : ∀ query, objects.contains query = true ↔
    upper query ≠ "" ∧ ∃ name ∈ names, normalName name = upper query
  /-- Names with the same normal form are one object. -/
  size_eq : objects.size = (normalForms names).card

/-- A set with the normal forms of the names for its words stands for the names. -/
theorem gathers_of_mem (h : ∀ word, word ∈ objects.names ↔ word ∈ normalForms names) :
    objects.Gathers names := by
  have hWords : objects.names.words.toFinset = normalForms names :=
    Finset.ext fun word => List.mem_toFinset.trans (h word)
  refine ⟨fun query => ?_, ?_⟩
  · rw [contains, WordSet.contains_eq_true_iff, h, mem_normalForms]
  · rw [← hWords]
    exact objects.names.card_toFinset.symm

/-- What a set answers and how large it is determine its words. -/
theorem gathers_iff :
    objects.Gathers names ↔ ∀ word, word ∈ objects.names ↔ word ∈ normalForms names := by
  refine ⟨fun h word => ?_, gathers_of_mem⟩
  -- Queries find every normal form in the set, and the number leaves no room for other words.
  have hSubset : normalForms names ⊆ objects.names.words.toFinset := by
    intro form hForm
    have hUpper := upper_of_mem_normalForms hForm
    have hContains : objects.contains form = true := by
      rw [h.contains_iff, hUpper]
      exact mem_normalForms.mp hForm
    rw [contains, hUpper, WordSet.contains_eq_true_iff] at hContains
    exact List.mem_toFinset.mpr hContains
  have hCard : objects.names.words.toFinset.card ≤ (normalForms names).card := by
    rw [← h.size_eq, WordSet.card_toFinset]
    exact Nat.le_refl _
  rw [Finset.eq_of_subset_of_card_le hSubset hCard, List.mem_toFinset]
  rfl

/-- A batch of names adds its names, and nothing else. -/
theorem Gathers.extend (h : objects.Gathers names) (more : List String) :
    (objects.extend more).Gathers (names ++ more) := by
  rw [gathers_iff] at h ⊢
  intro word
  rw [mem_names_extend, h, normalForms_append, Finset.mem_union]
  exact or_comm

/-- So do any number of batches. -/
theorem Gathers.extendAll (h : objects.Gathers names) (batches : List (List String)) :
    (objects.extendAll batches).Gathers (names ++ batches.flatten) := by
  induction batches generalizing objects names with
  | nil =>
    rw [List.flatten_nil, List.append_nil]
    exact h
  | cons batch rest ih =>
    rw [List.flatten_cons, ← List.append_assoc]
    exact ih (h.extend batch)

/-- A set that is made of names stands for them. -/
theorem gathers_ofNames (names : List String) : (ofNames names).Gathers names := by
  have hEmpty : empty.Gathers [] :=
    gathers_iff.mpr fun word => iff_of_false (WordSet.not_mem_empty word) (Finset.notMem_empty word)
  exact hEmpty.extend names

/-- Nothing can be told of a set but the normal forms of its names. -/
theorem Gathers.eq_iff (h : objects.Gathers names) (hOthers : others.Gathers more) :
    objects = others ↔ normalForms names = normalForms more := by
  rw [gathers_iff] at h hOthers
  constructor
  · rintro rfl
    exact Finset.ext fun word => (h word).symm.trans (hOthers word)
  · intro hForms
    have hNames : objects.names = others.names :=
      WordSet.ext fun word => by rw [h, hOthers, hForms]
    cases objects
    cases others
    exact congrArg ModifiableObjects.mk hNames

/-- No names bring the empty word into a set. -/
theorem Gathers.contains_empty (h : objects.Gathers names) : objects.contains "" = false := by
  rw [Bool.eq_false_iff]
  intro hContains
  exact ((h.contains_iff "").mp hContains).1 (by decide)

end ModifiableObjects

/-! ## Rules -/

namespace Rules

/-- The rules with batches of modifiable objects added, one batch after the other. -/
def withBatches (rules : Rules) (batches : List (List String)) : Rules :=
  batches.foldl withObjects rules

/-- Batches only add to the objects, and the dialect stays. -/
theorem withBatches_eq (rules : Rules) (batches : List (List String)) :
    rules.withBatches batches = ⟨rules.dialect, rules.objects.extendAll batches⟩ := by
  induction batches generalizing rules with
  | nil => rfl
  | cons batch rest ih => exact ih (rules.withObjects batch)

/-- Rules with batches of names have the objects of the dialect and those names. -/
theorem gathers_withBatches (dialect : Dialect) (batches : List (List String)) :
    (dialect.rules.withBatches batches).objects.Gathers (dialect.objects ++ batches.flatten) := by
  rw [withBatches_eq]
  exact (ModifiableObjects.gathers_ofNames dialect.objects).extendAll batches

/-- `IF` opens a block unless it names the block that `END` has closed, or guards an object. -/
theorem delta_conditional {rules : Rules} (hDialect : rules.dialect = .hsqldb) {keyword : String}
    (h : upper keyword = "IF") (previous : String) :
    rules.delta keyword previous =
      if upper previous = "END" ∨ rules.isModifiableObject previous = true then .neutral
      else .opens := by
  unfold delta
  rw [hDialect, h]
  exact if_congr (or_congr_left Role.ofWord_eq_closer_iff) rfl rfl

end Rules

/-! ## Objects and how they are built -/

/-- The objects of a dialect with batches of names added, and those that are built from names
alone, are the normal forms of all these names. Two sets are equal if and only if the normal forms
are, that is if each name that is not blank is among the names of the other set, perhaps in another
letter case and between other blanks. An `IF` opens no block after one of the normal forms and after
`END`, in any letter case, and it opens one after every other word. -/
theorem objects_gathered (dialect : Dialect) (batches : List (List String)) :
    let rules := dialect.rules.withBatches batches
    let names := dialect.objects ++ batches.flatten
    (∀ query, rules.isModifiableObject query = true ↔
      upper query ≠ "" ∧ ∃ name ∈ names, normalName name = upper query) ∧
    rules.objects.Gathers names ∧
    (∀ first, ((ModifiableObjects.ofNames first).extendAll batches).Gathers
      (first ++ batches.flatten)) ∧
    (∀ (objects others : ModifiableObjects) (first second : List String),
      objects.Gathers first → others.Gathers second →
      (objects = others ↔ normalForms first = normalForms second)) ∧
    (∀ first second, normalForms first = normalForms second ↔
      NamesAmong first second ∧ NamesAmong second first) ∧
    ∀ keyword previous, upper keyword = "IF" →
      (Dialect.hsqldb.rules.withBatches batches).delta keyword previous =
        if upper previous = "END" ∨
          upper previous ∈ normalForms (Dialect.hsqldb.objects ++ batches.flatten)
        then .neutral else .opens := by
  intro rules names
  have hRules : rules.objects.Gathers names := Rules.gathers_withBatches dialect batches
  refine ⟨hRules.contains_iff, hRules, fun first => ?_, fun objects others first second h h' => ?_,
    fun first second => normalForms_eq_iff, fun keyword previous h => ?_⟩
  · exact (ModifiableObjects.gathers_ofNames first).extendAll batches
  · exact h.eq_iff h'
  · have hDialect : (Dialect.hsqldb.rules.withBatches batches).dialect = .hsqldb := by
      rw [Rules.withBatches_eq]
      rfl
    have hObjects := Rules.gathers_withBatches .hsqldb batches
    -- The objects of the rules are asked, and they answer by the normal forms of the names.
    rw [Rules.delta_conditional hDialect h]
    refine if_congr (or_congr_right ?_) rfl rfl
    rw [mem_normalForms]
    exact hObjects.contains_iff previous

/-- A second spelling of a name and a blank name do not show, nor do the order and the batches. -/
theorem objects_gathered_view :
    let rules := Dialect.hsqldb.rules.withBatches [["view", "  ", "TABLE"]]
    let others := (ModifiableObjects.ofNames ["column\n", "Constraint"]).extendAll
      [["TABLE"], ["\tView", "view"]]
    rules.isModifiableObject "View" = true ∧ rules.isModifiableObject " view" = false ∧
      rules.objects.size = 4 ∧ rules.objects = others ∧
      rules.delta "If" "View" = .neutral ∧ rules.delta "If" "views" = .opens := by
  intro rules others
  obtain ⟨hQuery, hRules, -, hEqual, hSame, hDelta⟩ :=
    objects_gathered .hsqldb [["view", "  ", "TABLE"]]
  obtain ⟨-, -, hOthers, -⟩ := objects_gathered .hsqldb [["TABLE"], ["\tView", "view"]]
  refine ⟨(hQuery "View").mpr ?_, ?_, ?_, ?_, ?_, ?_⟩
  · decide +kernel
  · -- A query is not trimmed, so the blank in front of it counts.
    rw [Bool.eq_false_iff]
    exact mt (hQuery " view").mp (by decide +kernel)
  · rw [hRules.size_eq]
    decide +kernel
  · refine (hEqual _ _ _ _ hRules (hOthers ["column\n", "Constraint"])).mpr ?_
    exact (hSame _ _).mpr (by decide +kernel)
  · rw [hDelta "If" "View" (by decide)]
    exact if_pos (by decide +kernel)
  · rw [hDelta "If" "views" (by decide)]
    exact if_neg (by decide +kernel)

end SqlScript
