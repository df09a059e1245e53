import SqlScript.Proofs.Block.Clause
import SqlScript.Proofs.Dialect.Objects
import SqlScript.Proofs.Token.Reserved

/-!
# What modifiable objects act on

The set of modifiable objects is asked about one thing only, the keyword before an `IF`. This is a
reserved word in upper case, or there is none and the empty word is asked about, which no list of
names can bring into the set. So of all the names that a set of objects holds, only those that the
dialect reserves can make a difference.

`Rules.Precedes` is what the keyword before can be, and the invariant that carries the comparison:
every token of a script keeps it (`Context.precedes_feed`), and a cut restores it. Rules that agree
behind such words (`Rules.Agree`) do the same with every token of a script, and so with the script.

## Results

* `Splitter.step_congr`,
  `Splitter.run_congr`      — rules that agree do the same with a token, and with all tokens.
* `Rules.agree_of_objects`,
  `Rules.agree_withObjects` — objects that the reserved words do not tell apart make for rules that
  agree, and so do names that are no reserved words.
* `split_objects`           — hence modifiable objects act through reserved words only.
-/

namespace SqlScript

/-! ## Rules that agree -/

/-- The word can be the last keyword of a statement: there is none so far, or it is reserved. -/
def Rules.Precedes (rules : Rules) (word : String) : Prop :=
  word = "" ∨ word ∈ rules.keywords ∧ upper word = word

/-- The rules are of one dialect, and behind all words that can be the last keyword a keyword has
the same effect. -/
structure Rules.Agree (rules rules' : Rules) : Prop where
  dialect : rules.dialect = rules'.dialect
  delta : ∀ keyword previous, rules.Precedes previous →
    rules.delta keyword previous = rules'.delta keyword previous

/-- Rules of one dialect have the same keywords. -/
theorem Rules.Agree.isKeyword {rules rules' : Rules} (h : rules.Agree rules') (word : String) :
    rules.isKeyword word = rules'.isKeyword word := by
  unfold Rules.isKeyword Rules.keywords
  rw [h.dialect]

/-! ## Work by rules that agree -/

namespace Context

variable {rules rules' : Rules} {context : Context}

theorem precedes_empty (rules : Rules) : rules.Precedes empty.previous := .inl rfl

/-- A keyword of a script leaves itself behind as the last keyword, and other tokens leave the one
that there is. -/
theorem precedes_feed (h : rules.Precedes context.previous) {token : Token}
    (hToken : token.IsReserved rules) : rules.Precedes (context.feed rules token).previous := by
  -- The text of a keyword is in upper case already, so it is the word that is remembered.
  rw [previous_feed]
  by_cases hKeyword : token.isKeyword = true
  · obtain ⟨hReserved, hUpper⟩ := hToken hKeyword
    rw [if_pos hKeyword, hUpper]
    exact .inr ⟨hReserved, hUpper⟩
  · rw [if_neg hKeyword]
    exact h

variable (hAgree : rules.Agree rules') (h : rules.Precedes context.previous)

include hAgree h

theorem delta_congr (token : Token) : context.delta rules token = context.delta rules' token := by
  unfold delta
  rw [hAgree.delta token.text context.previous h]

/-- A context is fed alike by both, if its last keyword is one that a script can have. -/
theorem feed_congr (token : Token) : context.feed rules token = context.feed rules' token := by
  unfold feed
  rw [delta_congr hAgree h]

theorem events_congr (token : Token) :
    context.events rules token = context.events rules' token := by
  unfold events
  simp only [delta_congr hAgree h]

end Context

namespace Splitter

variable {rules rules' : Rules} {splitter : Splitter}

/-- Rules that agree do the same with a token of a script, and before the next one the last keyword
is again one behind which they agree. -/
theorem step_congr (hAgree : rules.Agree rules') (h : rules.Precedes splitter.context.previous)
    {token : Token} (hToken : token.IsReserved rules) :
    splitter.step rules token = splitter.step rules' token ∧
      rules.Precedes (splitter.step rules token).1.context.previous := by
  by_cases hCuts : splitter.context.cuts token
  · -- A cut does not ask for the rules, and the next statement starts without a keyword.
    rw [step_of_cuts hCuts, step_of_cuts hCuts, toDraft_cut]
    exact ⟨rfl, Context.precedes_empty rules⟩
  · -- What is logged and what is counted follow from the effect, on which the rules agree.
    rw [step_of_not_cuts hCuts, step_of_not_cuts hCuts]
    refine ⟨?_, Context.precedes_feed h hToken⟩
    unfold advance Draft.feed Draft.reportToken
    rw [Context.events_congr hAgree h, Context.feed_congr hAgree h]

/-- So they do with all tokens of a script. -/
theorem run_congr (hAgree : rules.Agree rules') (h : rules.Precedes splitter.context.previous)
    {tokens : List Token} (hTokens : ∀ token ∈ tokens, token.IsReserved rules) :
    splitter.run rules tokens = splitter.run rules' tokens := by
  induction tokens generalizing splitter with
  | nil => rfl
  | cons token rest ih =>
    obtain ⟨hToken, hRest⟩ := List.forall_mem_cons.mp hTokens
    obtain ⟨hStep, hNext⟩ := step_congr hAgree h hToken
    rw [run_cons, run_cons, ← hStep, ih hNext hRest]

end Splitter

section Congruence

variable {rules rules' : Rules} (hAgree : rules.Agree rules')

include hAgree

/-- Rules that agree give the same report on a script, or the same error. -/
theorem report_congr (script : String) : report rules script = report rules' script := by
  have hSame := tokenize_congr hAgree.isKeyword (dropByteOrderMark script)
  unfold report
  -- Both sets of rules reserve the same words, so they give the same tokens or the same error.
  cases hTokens : tokenize rules (dropByteOrderMark script) with
  | error error =>
    rw [hTokens] at hSame
    simp only [hTokens, ← hSame]
    rfl
  | ok tokens =>
    have hRun : (Splitter.ofString (dropByteOrderMark script)).run rules tokens =
        (Splitter.ofString (dropByteOrderMark script)).run rules' tokens :=
      Splitter.run_congr hAgree (Context.precedes_empty rules) (reserved_of_tokenize hTokens)
    have hReport : reportTokens rules (dropByteOrderMark script) tokens =
        reportTokens rules' (dropByteOrderMark script) tokens := by
      unfold reportTokens Splitter.complete
      rw [hRun]
    rw [hTokens] at hSame
    simp only [hTokens, ← hSame]
    exact congrArg Except.ok hReport

/-- Rules that agree split every script alike. -/
theorem split_congr (script : String) : split rules script = split rules' script := by
  unfold split
  rw [report_congr hAgree]

end Congruence

/-! ## Objects that make rules agree -/

/-- No list of names brings the empty word into the objects of a dialect. -/
theorem contains_withObjects_empty (dialect : Dialect) (names : List String) :
    (dialect.rules.withObjects names).objects.contains "" = false :=
  (Rules.gathers_withBatches dialect [names]).contains_empty

/-- Objects that agree on the words that can be the last keyword make for rules that agree. -/
theorem Rules.agree_of_objects {dialect : Dialect} {objects others : ModifiableObjects}
    (h : ∀ word, (⟨dialect, objects⟩ : Rules).Precedes word →
      objects.contains word = others.contains word) :
    (⟨dialect, objects⟩ : Rules).Agree ⟨dialect, others⟩ := by
  refine ⟨rfl, fun keyword previous hPrevious => ?_⟩
  cases dialect with
  | generic => rfl
  | hsqldb =>
    show (Role.ofWord (upper keyword)).delta (Role.ofWord (upper previous))
        (objects.contains previous) =
      (Role.ofWord (upper keyword)).delta (Role.ofWord (upper previous)) (others.contains previous)
    rw [h previous hPrevious]

/-- In the generic dialect all objects agree, since no keyword has an effect. -/
theorem Rules.agree_generic (objects others : ModifiableObjects) :
    (⟨.generic, objects⟩ : Rules).Agree ⟨.generic, others⟩ :=
  ⟨rfl, fun _ _ _ => rfl⟩

/-- Names that are no reserved words leave the rules as they are. -/
theorem Rules.agree_withObjects {rules : Rules} {names : List String}
    (h : ∀ name ∈ names, normalName name ∉ rules.keywords) :
    rules.Agree (rules.withObjects names) := by
  refine agree_of_objects fun word hWord => ?_
  -- A word that can be the last keyword is none of the new names.
  have hNew : upper word ∉ normalForms names := by
    intro hMem
    obtain ⟨hNe, name, hName, hNormal⟩ := mem_normalForms.mp hMem
    rcases hWord with rfl | ⟨hReserved, hUpper⟩
    · exact hNe (by decide)
    · refine h name hName ?_
      rw [hNormal, hUpper]
      exact hReserved
  rw [Bool.eq_iff_iff, ModifiableObjects.contains_extend_iff, or_iff_right hNew]

/-- The first keyword of a statement is behind no object, whatever the names of objects are. -/
theorem delta_conditional_first (names : List String) {context : Context} {token : Token}
    (hFirst : context.keywords = #[]) (hToken : token.Reads ["IF"]) :
    context.delta (Dialect.hsqldb.rules.withObjects names) token = .opens := by
  obtain ⟨hKeyword, hWord⟩ := hToken
  have hPrevious : context.previous = "" := by
    simp [Context.previous, hFirst]
  -- Before the first keyword the previous one is the empty word, which no set of objects holds.
  have hObjects := contains_withObjects_empty .hsqldb names
  have hDelta : context.delta (Dialect.hsqldb.rules.withObjects names) token =
      (Dialect.hsqldb.rules.withObjects names).delta token.text context.previous :=
    if_pos hKeyword
  rw [hDelta, hPrevious]
  refine (Rules.delta_conditional rfl (List.mem_singleton.mp hWord) "").trans (if_neg ?_)
  rw [Rules.isModifiableObject, hObjects]
  decide

/-! ## Modifiable objects and splits -/

/-- Modifiable objects act through reserved words only. If two lists of names do not differ in them,
every script is split alike, or has the same error; names that are no reserved words change no
split. No names keep an `IF` that is the first keyword of a statement from opening a block, and in
the generic dialect none change anything. -/
theorem split_objects (dialect : Dialect) (names others : List String) :
    let rules := dialect.rules.withObjects names
    let rules' := dialect.rules.withObjects others
    ((∀ word ∈ dialect.keywords,
        rules.isModifiableObject word = rules'.isModifiableObject word) →
      ∀ script, split rules script = split rules' script) ∧
    ((∀ name ∈ others, normalName name ∉ dialect.keywords) →
      ∀ script, split (rules.withObjects others) script = split rules script) ∧
    (∀ (context : Context) (token : Token), context.keywords = #[] → token.Reads ["IF"] →
      context.delta (Dialect.hsqldb.rules.withObjects names) token = .opens) ∧
    ∀ script, split (Dialect.generic.rules.withObjects names) script =
      split Dialect.generic.rules script := by
  intro rules rules'
  refine ⟨fun hSame script => ?_, fun hNames script => ?_,
    fun context token => delta_conditional_first names, fun script => ?_⟩
  · -- The empty word is asked about, too, but both lists leave it out.
    refine split_congr (Rules.agree_of_objects fun word hWord => ?_) script
    rcases hWord with rfl | ⟨hReserved, -⟩
    · have hNone := contains_withObjects_empty dialect names
      exact hNone.trans (contains_withObjects_empty dialect others).symm
    · exact hSame word hReserved
  · exact (split_congr (Rules.agree_withObjects hNames) script).symm
  · exact split_congr (Rules.agree_generic _ _) script

/-! ### A name that is not reserved -/

theorem view_not_mem_hsqldb : "VIEW" ∉ Dialect.hsqldb.keywords := by decide +kernel

theorem normalName_view : normalName "View" = "VIEW" ∧ normalName " view\n" = "VIEW" := by
  decide +kernel

/-- The two spellings of a name do the same, which is nothing as the name is not reserved. -/
theorem split_objects_view :
    let rules := Dialect.hsqldb.rules.withObjects ["View"]
    split rules "DROP VIEW IF EXISTS v;" =
        split (Dialect.hsqldb.rules.withObjects [" view\n"]) "DROP VIEW IF EXISTS v;" ∧
      split (rules.withObjects [" view\n"]) "DROP VIEW IF EXISTS v;" =
        split rules "DROP VIEW IF EXISTS v;" ∧
      Context.empty.delta rules ⟨"If", .keyword, ⟨1, 1⟩⟩ = .opens := by
  intro rules
  obtain ⟨hSame, hNew, hFirst, -⟩ := split_objects .hsqldb ["View"] [" view\n"]
  obtain ⟨hView, hSpaced⟩ := normalName_view
  refine ⟨hSame (fun word _ => ?_) _, hNew (fun name hName => ?_) _, hFirst _ _ rfl (by decide)⟩
  · show (Dialect.hsqldb.rules.objects.extend ["View"]).contains word =
      (Dialect.hsqldb.rules.objects.extend [" view\n"]).contains word
    simp only [ModifiableObjects.extend, ModifiableObjects.normalNames, List.map_cons,
      List.map_nil, hView, hSpaced]
  · rw [List.mem_singleton.mp hName, hSpaced]
    exact view_not_mem_hsqldb

/-- A reserved word does make a difference. -/
example :
    let front : List Token := [⟨"DROP", .keyword, ⟨1, 1⟩⟩, ⟨"TRIGGER", .keyword, ⟨1, 6⟩⟩]
    let guard : Token := ⟨"IF", .keyword, ⟨1, 14⟩⟩
    let rules := Dialect.hsqldb.rules
    let more := rules.withObjects ["trigger "]
    (Context.empty.feedAll rules front).delta rules guard = .opens ∧
      (Context.empty.feedAll more front).delta more guard = .neutral := by
  decide +kernel

end SqlScript
