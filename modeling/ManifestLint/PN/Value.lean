/-
ManifestLint.PN.Value — the values that PN text is made of, and its grammar.

A value is a string, a number, one of three words, a form (a symbol and values
in parentheses) or a list (values in brackets). The grammar is a machine
that takes one token at a time: its state holds the brackets still open, innermost
first, with the values already complete inside each.

The machine stops at the first token that nothing starting with the tokens
before it can go on with; `State.allows` says which terminals a state takes, and the
main statement is that a step succeeds exactly on those (`isSome_step`).
-/
import ManifestLint.PN.Token

namespace ManifestLint.PN

/-! ## 1. Values -/

/-- The words that are values. -/
inductive Constant where
  | yes
  | no
  | nil
  deriving DecidableEq, Repr

/-- A value of PN, located at its first character. Strings keep their quotes. -/
inductive Value where
  | string (point : Point) (text : List Char)
  | number (point : Point) (text : List Char)
  | constant (point : Point) (word : Constant)
  | form (point : Point) (head : List Char) (arguments : List Value)
  | list (point : Point) (items : List Value)

namespace Value

/-- Where a value starts. -/
def point : Value → Point
  | string p _ | number p _ | constant p _ | form p _ _ | list p _ => p

end Value

/-! ## 2. States -/

/-- What an open bracket will make of the values inside it. -/
inductive Opening where
  | form (head : List Char)
  | list
  deriving DecidableEq, Repr

namespace Opening

/-- The terminal that closes the bracket. -/
def closer : Opening → Terminal
  | form _ => .rightParen
  | list => .rightBracket

/-- The value that the bracket makes. -/
def close (p : Point) (values : List Value) : Opening → Value
  | form head => .form p head values
  | list => .list p values

end Opening

/-- An open bracket and the values complete inside it, the last one first. -/
structure Frame where
  point : Point
  opening : Opening
  values : List Value

/-- How far the tokens read so far have come. -/
inductive State where
  /-- Nothing is read. -/
  | start
  /-- A parenthesis has just been opened at `point`, inside of `outer`. -/
  | head (point : Point) (outer : List Frame)
  /-- Inside a bracket, which is inside of `outer`. -/
  | inside (frame : Frame) (outer : List Frame)
  /-- The whole value is read. -/
  | complete (value : Value)

namespace Terminal

/-- Terminals that a value starts with. -/
def startsValue : Terminal → Bool
  | .falseWord | .leftParen | .leftBracket | .nilWord | .number | .string | .trueWord => true
  | _ => false

end Terminal

namespace State

/-- The terminals that a state can go on with. -/
def allows : State → Terminal → Bool
  | start, t => t.startsValue
  | head _ _, t => t = .symbol
  | inside f _, t => t.startsValue || t = f.opening.closer
  | complete _, t => t = .endOfText

/-- The terminals that a state can go on with, in the order of their names. -/
def expected (s : State) : List Terminal := Terminal.all.filter s.allows

/-- Adds a complete value to the innermost open bracket. -/
def put (v : Value) : List Frame → State
  | [] => complete v
  | f :: outer => inside { f with values := v :: f.values } outer

/-- Starts a value inside of `outer`. -/
def begin (t : Token) (outer : List Frame) : Option State :=
  match t.terminal with
  | .leftParen => some (head t.point outer)
  | .leftBracket => some (inside ⟨t.point, .list, []⟩ outer)
  | .string => some (put (.string t.point t.text) outer)
  | .number => some (put (.number t.point t.text) outer)
  | .trueWord => some (put (.constant t.point .yes) outer)
  | .falseWord => some (put (.constant t.point .no) outer)
  | .nilWord => some (put (.constant t.point .nil) outer)
  | _ => none

/-- Takes one token. -/
def step : State → Token → Option State
  | start, t => begin t []
  | head p outer, t =>
    if t.terminal = .symbol then some (inside ⟨p, .form t.text, []⟩ outer) else none
  | inside f outer, t =>
    if t.terminal = f.opening.closer then
      some (put (f.opening.close f.point f.values.reverse) outer)
    else begin t (f :: outer)
  | complete _, _ => none

theorem isSome_begin (t : Token) (outer : List Frame) :
    (begin t outer).isSome = t.terminal.startsValue := by
  unfold begin
  cases t.terminal <;> rfl

/-- A step succeeds exactly on the terminals that the state allows. -/
theorem isSome_step (s : State) (t : Token) (ht : t.terminal ≠ .endOfText) :
    (s.step t).isSome = s.allows t.terminal := by
  cases s with
  | start => exact isSome_begin t []
  | head p outer => by_cases h : t.terminal = .symbol <;> simp [step, allows, h]
  | inside f outer =>
    by_cases h : t.terminal = f.opening.closer <;> simp [step, allows, h, isSome_begin]
  | complete v => simp [step, allows, ht]

theorem mem_expected (s : State) (t : Terminal) : t ∈ s.expected ↔ s.allows t = true := by
  simp [expected, Terminal.mem_all]

end State

/-! ## 3. Whole texts -/

/-- Why a text is no value. -/
inductive Malformed where
  /-- No terminal starts with the text `rest`, which stands at `point` after the text `before`;
  `previous` is the last token before it. -/
  | noTerminal (point : Point) (before rest : List Char) (previous : Option Token)
  /-- The grammar cannot go on with this token, only with the terminals given. -/
  | unexpected (token : Token) (expected : List Terminal)
  deriving DecidableEq, Repr

namespace Malformed

/-- Where the text goes wrong. -/
def point : Malformed → Point
  | noTerminal p _ _ _ => p
  | unexpected t _ => t.point

end Malformed

/-- The token that stands for the end of a text. It is located at the last token. -/
def endToken (previous : Option Token) : Token :=
  ⟨.endOfText, [], (previous.map Token.point).getD .start⟩

/-- Feeds tokens to a state. `stuck` says where the scan of `source` stopped short, if it did. -/
def feed (source : List Char) (stuck : Option Stuck) (s : State) (previous : Option Token) :
    List Token → Except Malformed Value
  | [] =>
    match stuck, s with
    | some k, _ =>
      .error (.noTerminal k.point (source.take (source.length - k.rest.length)) k.rest previous)
    | none, .complete v => .ok v
    | none, s => .error (.unexpected (endToken previous) s.expected)
  | t :: ts =>
    match s.step t with
    | some s' => feed source stuck s' (some t) ts
    | none => .error (.unexpected t s.expected)

/-- The value that a source text spells. -/
def parse (source : List Char) : Except Malformed Value :=
  feed source (scan source).stuck .start none (scan source).tokens

end ManifestLint.PN
