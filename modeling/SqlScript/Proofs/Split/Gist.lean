import SqlScript.Proofs.Block.Feed
import SqlScript.Proofs.Lexeme.Letters
import SqlScript.Proofs.Split.Concat

/-!
# What a split may depend on

The statements and the problems of a script do not depend on everything that its tokens say. Blanks
and comments could be left out, of the other kinds only keywords and terminators have a part of
their own, and of the texts only those of keywords are looked at, in upper case. The `gist` of a
token is what is left of it then, with its position.

A splitter that is given the gists goes through the same states, its cursor included: a token that
is left out changes nothing, and no position is looked up for it. Only the log can tell the two
runs apart, since it repeats a stray keyword as it is written. Nothing is asked of the positions,
which may be anything.

## Results

* `Splitter.step_of_isTrivia`,
  `Splitter.step_gist`         — a blank or a comment does nothing, and a gist does what its token
  does.
* `splitTokens_gists`          — tokens are split as their gists are.
* `splitTokens_eq_of_gists_eq` — hence tokens with the same gists are split alike.
-/

namespace SqlScript

/-! ## Gists -/

/-- The kind of a token for a split: the three kinds without a part of their own count as one. -/
def TokenKind.gist : TokenKind → TokenKind
  | identifier | literal | operator => operator
  | keyword => keyword
  | terminator => terminator
  | whitespace => whitespace
  | comment => comment

/-- What a split may depend on of a token. -/
def Token.gist (token : Token) : Token where
  text := if token.isKeyword then upper token.text else ""
  kind := token.kind.gist
  start := token.start

/-- What a split may depend on of some tokens. -/
def gists (tokens : List Token) : List Token :=
  (tokens.filter fun token => !token.isTrivia).map Token.gist

theorem gists_cons (token : Token) (rest : List Token) :
    gists (token :: rest) =
      if token.isTrivia then gists rest else token.gist :: gists rest := by
  unfold gists
  by_cases h : token.isTrivia = true
  · rw [if_pos h, List.filter_cons_of_neg (by simp [h])]
  · rw [if_neg h, List.filter_cons_of_pos (by simp [h]), List.map_cons]

namespace Token

variable (token : Token)

@[simp] theorem start_gist : token.gist.start = token.start := rfl

@[simp] theorem isKeyword_gist : token.gist.isKeyword = token.isKeyword := by
  show decide (token.kind.gist = .keyword) = decide (token.kind = .keyword)
  cases token.kind <;> rfl

@[simp] theorem isTerminator_gist : token.gist.isTerminator = token.isTerminator := by
  show decide (token.kind.gist = .terminator) = decide (token.kind = .terminator)
  cases token.kind <;> rfl

@[simp] theorem isTrivia_gist : token.gist.isTrivia = token.isTrivia := by
  show decide (token.kind.gist = .whitespace ∨ token.kind.gist = .comment) =
    decide (token.kind = .whitespace ∨ token.kind = .comment)
  cases token.kind <;> rfl

end Token

/-! ## Work on gists -/

namespace Context

variable (rules : Rules) (context : Context) (token : Token)

/-- Whether a token is cut at can be seen from its gist. -/
theorem cuts_gist : context.cuts token.gist ↔ context.cuts token := by
  unfold cuts
  rw [Token.isTerminator_gist]

/-- Only the text of a keyword is looked at, and its letter case does not count. -/
theorem delta_gist : context.delta rules token.gist = context.delta rules token := by
  unfold delta
  rw [Token.isKeyword_gist]
  by_cases h : token.isKeyword = true
  · have hText : token.gist.text = upper token.text := if_pos h
    rw [if_pos h, if_pos h, hText]
    unfold Rules.delta
    rw [upper_upper]
  · rw [if_neg h, if_neg h]

/-- A context is fed with the gist of a token as it is with the token. -/
theorem feed_gist : context.feed rules token.gist = context.feed rules token := by
  unfold feed
  rw [Token.isKeyword_gist, delta_gist, Token.start_gist]
  by_cases h : token.isKeyword = true
  · have hText : token.gist.text = upper token.text := if_pos h
    rw [if_pos h, if_pos h, hText, upper_upper]
  · rw [if_neg h, if_neg h]

end Context

/-- Of what two reports come together, the log is no part of the split. -/
theorem Report.split_eq_append (first second : Report) :
    (first ++ second).split = first.split.append second.split := rfl

namespace Splitter

variable (rules : Rules) (splitter : Splitter)

/-- A blank or a comment does nothing. -/
theorem step_of_isTrivia {token : Token} (h : token.isTrivia = true) :
    splitter.step rules token = (splitter, Report.empty) := by
  have hKeyword := Token.isKeyword_of_isTrivia h
  have hCuts : ¬ splitter.context.cuts token := by
    rintro ⟨hMark, -⟩
    rw [Token.isTerminator_of_isTrivia h] at hMark
    cases hMark
  -- The context ignores it, no statement starts with it, and nothing is logged of it.
  have hFeed := (splitter.context.feed_of_not_keyword rules token hKeyword).1
  have hEvents : splitter.context.events rules token = #[] := if_neg (by simp [hKeyword])
  rw [step_of_not_cuts hCuts]
  unfold advance Draft.feed Draft.reportToken
  rw [hFeed, hEvents, if_pos h]
  rfl

/-- A gist does what its token does, but for the log. -/
theorem step_gist (token : Token) :
    (splitter.step rules token.gist).1 = (splitter.step rules token).1 ∧
      (splitter.step rules token.gist).2.split = (splitter.step rules token).2.split := by
  by_cases hCuts : splitter.context.cuts token
  · rw [step_of_cuts hCuts, step_of_cuts ((splitter.context.cuts_gist token).mpr hCuts),
      Token.start_gist]
    exact ⟨rfl, rfl⟩
  · rw [step_of_not_cuts hCuts, step_of_not_cuts (mt (splitter.context.cuts_gist token).mp hCuts)]
    refine ⟨?_, rfl⟩
    unfold advance Draft.feed
    rw [Token.isTrivia_gist, Token.start_gist, Context.feed_gist]

/-- The gists of some tokens lead to where the tokens do. -/
theorem run_gists (tokens : List Token) :
    (splitter.run rules (gists tokens)).1 = (splitter.run rules tokens).1 ∧
      (splitter.run rules (gists tokens)).2.split = (splitter.run rules tokens).2.split := by
  induction tokens generalizing splitter with
  | nil => exact ⟨rfl, rfl⟩
  | cons token rest ih =>
    rw [gists_cons]
    by_cases h : token.isTrivia = true
    · -- The token is left out, and the run does not miss it.
      rw [if_pos h, run_cons, splitter.step_of_isTrivia rules h, Report.empty_append]
      exact ih splitter
    · rw [if_neg h, run_cons, run_cons]
      obtain ⟨hNext, hFirst⟩ := splitter.step_gist rules token
      obtain ⟨hLast, hRest⟩ := ih (splitter.step rules token).1
      rw [hNext]
      refine ⟨hLast, ?_⟩
      rw [Report.split_eq_append, Report.split_eq_append, hFirst, hRest]

end Splitter

/-- Tokens are split as their gists are. -/
theorem splitTokens_gists (rules : Rules) (script : String) (tokens : List Token) :
    splitTokens rules script (gists tokens) = splitTokens rules script tokens := by
  obtain ⟨hLast, hRun⟩ := (Splitter.ofString script).run_gists rules tokens
  unfold splitTokens reportTokens Splitter.complete
  dsimp only
  rw [Report.split_eq_append, Report.split_eq_append, hLast, hRun]

/-- Tokens with the same gists are split alike: a split depends on the positions of the tokens other
than blanks and comments, on which of them are keywords and which are terminators, and on the texts
of the keywords in upper case. -/
theorem splitTokens_eq_of_gists_eq (rules : Rules) (script : String) {tokens others : List Token}
    (h : gists tokens = gists others) :
    splitTokens rules script tokens = splitTokens rules script others := by
  rw [← splitTokens_gists rules script tokens, h, splitTokens_gists]

/-- Tokens in column 0 and out of order. -/
theorem splitTokens_eq_of_gists_eq_scattered :
    splitTokens Dialect.hsqldb.rules "a b;c"
        [⟨"a", .identifier, ⟨1, 0⟩⟩, ⟨" ", .whitespace, ⟨7, 7⟩⟩, ⟨"End", .keyword, ⟨0, 3⟩⟩,
          ⟨";", .terminator, ⟨1, 4⟩⟩, ⟨"c", .literal, ⟨1, 2⟩⟩, ⟨"--", .comment, ⟨1, 0⟩⟩] =
      splitTokens Dialect.hsqldb.rules "a b;c"
        [⟨"/**/", .comment, ⟨1, 1⟩⟩, ⟨"+", .operator, ⟨1, 0⟩⟩, ⟨"END", .keyword, ⟨0, 3⟩⟩,
          ⟨"", .terminator, ⟨1, 4⟩⟩, ⟨"x", .identifier, ⟨1, 2⟩⟩] :=
  splitTokens_eq_of_gists_eq _ _ (by decide +kernel)

end SqlScript
