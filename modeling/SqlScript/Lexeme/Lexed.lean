import SqlScript.Lexeme.Rule
import SqlScript.Position

/-!
# Scripts as sequences of lexemes

`lex` cuts a script into lexemes from left to right, up to the end or to the first fault. A fault
lies after the lexemes before it, so its position follows from their characters.

* `lex_nil` and `lex_cons` unfold `lex` along the script.
-/

namespace SqlScript

/-- A script cut into lexemes, up to the first fault if it has one. -/
structure Lexed where
  lexemes : List Lexeme
  fault : Option Fault
  deriving DecidableEq, Repr, Inhabited

namespace Lexed

/-- Cuts the characters into lexemes, after those already cut off in reverse. -/
def collect (done : List Lexeme) : List Char → Lexed
  | [] => ⟨done.reverse, none⟩
  | c :: rest =>
    match readLexeme c rest with
    | .ok lexeme => collect (lexeme :: done) (rest.drop (lexeme.source.length - 1))
    | .error fault => ⟨done.reverse, some fault⟩
  termination_by chars => chars.length
  decreasing_by simp only [List.length_drop, List.length_cons]; omega

/-- The characters of all lexemes. -/
def source (lexed : Lexed) : List Char := lexed.lexemes.flatMap Lexeme.source

/-- The position of a fault that ends the sequence. -/
def faultPosition (lexed : Lexed) (fault : Fault) : Position :=
  Position.start.advanceBy (lexed.source ++ fault.before)

end Lexed

/-- Cuts a script into lexemes. -/
def lex (script : List Char) : Lexed := Lexed.collect [] script

/-- The lexemes cut off before only stand in front of the result. -/
theorem Lexed.collect_eq (done : List Lexeme) (script : List Char) :
    collect done script = ⟨done.reverse ++ (lex script).lexemes, (lex script).fault⟩ := by
  unfold lex
  match script with
  | [] => simp [collect]
  | c :: rest =>
    rw [collect, collect]
    cases readLexeme c rest with
    | ok lexeme =>
      simp only
      rw [collect_eq (lexeme :: done), collect_eq [lexeme]]
      simp
    | error fault => simp
  termination_by script.length
  decreasing_by all_goals simp only [List.length_drop, List.length_cons]; omega

@[simp] theorem lex_nil : lex [] = ⟨[], none⟩ := by simp [lex, Lexed.collect]

/-- A script is its first lexeme and what is cut off behind it. -/
theorem lex_cons (c : Char) (rest : List Char) :
    lex (c :: rest) =
      match readLexeme c rest with
      | .ok lexeme =>
        let others := lex (rest.drop (lexeme.source.length - 1))
        ⟨lexeme :: others.lexemes, others.fault⟩
      | .error fault => ⟨[], some fault⟩ := by
  rw [lex, Lexed.collect]
  cases readLexeme c rest with
  | ok lexeme => simp [Lexed.collect_eq]
  | error fault => simp

end SqlScript
