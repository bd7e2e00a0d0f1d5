/-
ManifestLint.Json — JSON values and their one-line ASCII text.

Members and elements are separated by a comma and a blank, names and values by
a colon and a blank. Code points outside the printable ASCII range are escaped;
those above `0xFFFF` as two halves of a surrogate pair, so surrogates that stand
alone and pairs of them are written alike.
-/
import ManifestLint.Text

namespace ManifestLint

/-- A JSON value. Object members keep their order. -/
inductive Json where
  | null
  | boolean (value : Bool)
  | integer (value : Int)
  | text (value : Text)
  | list (items : List Json)
  | object (members : List (String × Json))

namespace Json

/-- A sixteen-bit unit as an escape. -/
def unitEscape (n : Nat) : List Char := '\\' :: 'u' :: hexDigits 4 n

/-- A code point inside a JSON string. -/
def escape (p : CodePoint) : List Char :=
  let n := p.val
  if n = 0x22 then ['\\', '"']
  else if n = 0x5C then ['\\', '\\']
  else if n = 0x0A then ['\\', 'n']
  else if n = 0x0D then ['\\', 'r']
  else if n = 0x09 then ['\\', 't']
  else if n = 0x0C then ['\\', 'f']
  else if n = 0x08 then ['\\', 'b']
  else if 0x20 ≤ n && n < 0x7F then [Char.ofNat n]
  else if n < 0x10000 then unitEscape n
  else
    let m := n - 0x10000
    unitEscape (0xD800 + m / 0x400) ++ unitEscape (0xDC00 + m % 0x400)

/-- A text as a JSON string. -/
def string (t : Text) : List Char := '"' :: t.flatMap escape ++ ['"']

mutual

/-- The text of a JSON value. -/
def chars : Json → List Char
  | null => "null".toList
  | boolean b => (if b then "true" else "false").toList
  | integer i => (toString i).toList
  | text t => string t
  | list items => '[' :: charsOfItems items ++ [']']
  | object members => '\x7b' :: charsOfMembers members ++ ['\x7d']

/-- The texts of elements, separated. -/
def charsOfItems : List Json → List Char
  | [] => []
  | [j] => j.chars
  | j :: js => j.chars ++ ',' :: ' ' :: charsOfItems js

/-- The texts of members, separated. -/
def charsOfMembers : List (String × Json) → List Char
  | [] => []
  | [(name, j)] => string (Text.ofString name) ++ ':' :: ' ' :: j.chars
  | (name, j) :: ms => string (Text.ofString name) ++ ':' :: ' ' :: j.chars ++
      ',' :: ' ' :: charsOfMembers ms

end

/-- The text of a JSON value as a string. -/
def render (j : Json) : String := String.ofList j.chars

/-- A value that may be missing. -/
def optional {α : Type} (f : α → Json) : Option α → Json
  | some a => f a
  | none => null

/-- A string as a JSON value. -/
def ofString (s : String) : Json := text (Text.ofString s)

/-- A natural number as a JSON value. -/
def ofNat (n : Nat) : Json := integer n

end Json

end ManifestLint
