/-
ManifestLint.PN.Fault — why a source text is refused, and the words for it.

A text is malformed when the grammar cannot go on with it; a well-formed text is
refused when some value in it breaks a rule of the form that it stands in
(`Fault`, with the point of the value to blame) or when an integer has too
many digits.
-/
import ManifestLint.Text.Quoted
import ManifestLint.PN.Value
import ManifestLint.PN.Form
import ManifestLint.PN.Numeral

namespace ManifestLint.PN

/-! ## 1. Causes -/

/-- The rules that a value can break. -/
inductive Fault where
  /-- A list stands where an expression is required. -/
  | listAsExpression
  /-- No form starts with this symbol. -/
  | unknownForm (word : List Char)
  /-- A form has too few or too many arguments. -/
  | argumentCount (word : String) (least : Nat) (most : Option Nat) (count : Nat)
  /-- An argument has to be a string. -/
  | notString (what : String)
  /-- An argument has to be a list. -/
  | notList (what : String)
  /-- An argument has to be a form of one kind. -/
  | notOfKind (what : String) (kind : Kind)
  /-- A text is none of those allowed. -/
  | notAllowed (what : String) (allowed : List String) (got : Text)
  /-- An activity has more than a hash and one expression after its name. -/
  | activityTail
  /-- A string token holds an escape that means nothing. -/
  | badEscape (token : List Char)
  deriving DecidableEq, Repr

/-- Why a well-formed value makes no tree. -/
inductive Refusal where
  | fault (point : Point) (fault : Fault)
  | tooManyDigits (count : Nat)
  deriving DecidableEq, Repr

/-- Why a source text makes no tree. -/
inductive ReadError where
  | malformed (why : Malformed)
  | refused (why : Refusal)
  deriving DecidableEq, Repr

/-! ## 2. Words for malformed texts -/

namespace Token

/-- A token as messages show it. -/
def shown (t : Token) : List Char :=
  "Token('".toList ++ t.terminal.name.toList ++ "', ".toList ++ Text.quoted t.text ++ [')']

end Token

/-- One line for each terminal. -/
def terminalLines (ts : List Terminal) : List Char :=
  ts.flatMap fun t => "\n\t* ".toList ++ t.name.toList

namespace Malformed

/-- The terminals named wherever no terminal matches. -/
def matchable : List Terminal :=
  [.leftParen, .leftBracket, .rightParen, .rightBracket, .number, .string, .symbol]

/-- How far to either side of a point its context reaches. -/
def contextReach : Nat := 40

/-- The part of the line before a point that its context shows. -/
def contextBefore (before : List Char) : List Char :=
  ((before.drop (before.length - contextReach)).reverse.takeWhile (· ≠ '\n')).reverse

/-- The part of the line after a point that its context shows. -/
def contextAfter (rest : List Char) : List Char := (rest.take contextReach).takeWhile (· ≠ '\n')

/-- How many columns a text takes when tabs go on to the next multiple of eight; a carriage return
takes one, after which tabs count from zero. `column` is where the text starts. -/
def width (column : Nat) : List Char → Nat
  | [] => 0
  | c :: cs =>
    if c = '\t' then (8 - column % 8) + width 0 cs
    else if c = '\r' then 1 + width 0 cs
    else 1 + width (column + 1) cs

/-- The line around a point, and under it a mark. -/
def context (before rest : List Char) : List Char :=
  let left := contextBefore before
  left ++ contextAfter rest ++ '\n' :: List.replicate (width 0 left) ' ' ++ ['^', '\n']

/-- The words for a text that the grammar cannot go on with. -/
def message : Malformed → List Char
  | noTerminal p before rest previous =>
    "No terminal matches '".toList ++ rest.take 1 ++
      s!"' in the current parser context, at line {p.line} col {p.column}\n\n".toList ++
      context before rest ++ "Expected one of: ".toList ++ terminalLines matchable ++ ['\n'] ++
      match previous with
      | none => []
      | some t => "\nPrevious tokens: ".toList ++ t.shown ++ ['\n']
  | unexpected t expected =>
    "Unexpected token ".toList ++ t.shown ++
      s!" at line {t.point.line}, column {t.point.column}.\nExpected one of: ".toList ++
      terminalLines expected ++ ['\n']

end Malformed

/-! ## 3. Words for refused values -/

/-- The words for a range of argument counts. -/
def countRange (least : Nat) : Option Nat → String
  | none => s!"at least {least}"
  | some most => if most = least then s!"{least}" else s!"{least} to {most}"

/-- Allowed texts, quoted, as alternatives. -/
def alternatives (allowed : List String) : String :=
  String.intercalate " or " (allowed.map fun a => s!"'{a}'")

namespace Fault

/-- The words for a broken rule. -/
def message : Fault → Text
  | listAsExpression => "a list is not an expression"
  | unknownForm word => Text.ofChars ("unknown form '".toList ++ word ++ ['\''])
  | argumentCount word least most count =>
    s!"'{word}' takes {countRange least most} argument(s), got {count}"
  | notString what => s!"{what} must be a string"
  | notList what => s!"{what} must be a [...] list"
  | notOfKind what kind => s!"{what} must be a {kind.noun}"
  | notAllowed what allowed got =>
    Text.ofString s!"{what} must be {alternatives allowed}, got '" ++ got ++ Text.ofString "'"
  | activityTail => "activity takes an optional property hash followed by an optional definition"
  | badEscape token => Text.ofChars ("invalid string escape in ".toList ++ token)

end Fault

/-- The words for an integer with too many digits. -/
def digitMessage (limit count : Nat) : Text :=
  s!"Exceeds the limit ({limit} digits) for integer string conversion: " ++
    s!"value has {count} digits; use sys.set_int_max_str_digits() to increase the limit"

namespace ReadError

/-- Where a refused text goes wrong, if the error has a place. -/
def point? : ReadError → Option Point
  | malformed m => some m.point
  | refused (.fault p _) => some p
  | refused (.tooManyDigits _) => none

/-- The words for an error, without its place. -/
def reason : ReadError → Text
  | malformed m => Text.ofChars ("malformed PN input: ".toList ++ m.message)
  | refused (.fault _ f) => f.message
  | refused (.tooManyDigits count) => digitMessage Numeral.digitLimit count

/-- The words for an error, its place first. -/
def message (e : ReadError) : Text :=
  match e.point? with
  | some p => Text.ofString s!"{p.line}:{p.column}: " ++ e.reason
  | none => e.reason

end ReadError

end ManifestLint.PN
