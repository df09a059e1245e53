import SqlScript.Lexeme.Basic

/-!
# Readers

Strings, comments and delimited identifiers are read by small machines, one character at a time. A
`Reader` says what a character does in a state and whether the script may end in it; `Reader.read`
runs it and returns the characters it took together with the content they stand for.
-/

namespace SqlScript

/-- What a reader does with a character. -/
inductive Move (σ : Type) where
  /-- Takes the character, goes to a state and adds some text to the content. -/
  | take (next : σ) (text : List Char)
  /-- Takes the character as the last one. -/
  | finish
  /-- Stops before the character. -/
  | leave
  /-- Takes the character and finds a fault. -/
  | spoil (cause : Cause)
  deriving DecidableEq, Repr

/-- The move with some text in front of what it adds. -/
def Move.after {σ : Type} (text : List Char) : Move σ → Move σ
  | take next added => take next (text ++ added)
  | move => move

/-- A machine that reads one lexeme. -/
structure Reader (σ : Type) where
  /-- What a character does in a state. -/
  step : σ → Char → Move σ
  /-- What is wrong if the script ends in a state. -/
  atEnd : σ → Option Cause

/-- What a reader has read. -/
structure Body where
  /-- The text that the characters stand for. -/
  content : List Char
  /-- The characters that were taken. -/
  source : List Char
  deriving DecidableEq, Repr, Inhabited

namespace Reader

variable {σ : Type}

/-- Reads on from a state, with content and characters collected so far in reverse. -/
def collect (reader : Reader σ) (state : σ) (content source : List Char) :
    List Char → Except Fault Body
  | [] =>
    match reader.atEnd state with
    | none => .ok ⟨content.reverse, source.reverse⟩
    | some cause => .error ⟨cause, source.reverse⟩
  | c :: rest =>
    match reader.step state c with
    | .take next text => collect reader next (text.reverse ++ content) (c :: source) rest
    | .finish => .ok ⟨content.reverse, (c :: source).reverse⟩
    | .leave => .ok ⟨content.reverse, source.reverse⟩
    | .spoil cause => .error ⟨cause, (c :: source).reverse⟩

/-- Reads from a state. A fault is reported after the characters taken. -/
def read (reader : Reader σ) (state : σ) (chars : List Char) : Except Fault Body :=
  reader.collect state [] [] chars

/-- The characters collected before a run only stand in front of its result. -/
theorem collect_eq (reader : Reader σ) (state : σ) (content source chars : List Char) :
    reader.collect state content source chars =
      match reader.read state chars with
      | .ok body => .ok ⟨content.reverse ++ body.content, source.reverse ++ body.source⟩
      | .error fault => .error ⟨fault.cause, source.reverse ++ fault.before⟩ := by
  unfold read
  induction chars generalizing state content source with
  | nil => cases h : reader.atEnd state <;> simp [collect, h]
  | cons c rest ih =>
    cases h : reader.step state c with
    | take next text =>
      simp only [collect, h]
      rw [ih next (text.reverse ++ content) (c :: source), ih next (text.reverse ++ []) [c]]
      cases reader.collect next [] [] rest <;> simp
    | finish => simp [collect, h]
    | leave => simp [collect, h]
    | spoil cause => simp [collect, h]

/-- At the end of the script it matters where the reader is. -/
theorem read_nil (reader : Reader σ) (state : σ) :
    reader.read state [] =
      match reader.atEnd state with
      | none => .ok ⟨[], []⟩
      | some cause => .error ⟨cause, []⟩ := by
  cases h : reader.atEnd state <;> simp [read, collect, h]

/-- Reading goes on from the state that the first character leads to, and puts in front what it
takes. -/
theorem read_cons (reader : Reader σ) (state : σ) (c : Char) (rest : List Char) :
    reader.read state (c :: rest) =
      match reader.step state c with
      | .take next text =>
        match reader.read next rest with
        | .ok body => .ok ⟨text ++ body.content, c :: body.source⟩
        | .error fault => .error ⟨fault.cause, c :: fault.before⟩
      | .finish => .ok ⟨[], [c]⟩
      | .leave => .ok ⟨[], []⟩
      | .spoil cause => .error ⟨cause, [c]⟩ := by
  cases h : reader.step state c with
  | take next text =>
    rw [read, collect, h]
    simp only
    rw [collect_eq]
    cases reader.read next rest <;> simp
  | finish => simp [read, collect, h]
  | leave => simp [read, collect, h]
  | spoil cause => simp [read, collect, h]

end Reader

end SqlScript
