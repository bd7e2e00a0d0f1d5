/-
ManifestLint.PN.StringLiteral — what the characters between quotes mean.

A character stands for itself, except that a backslash starts an escape: a
letter for a control character, up to three octal digits, `x`, `u` or `U` with
two, four or eight hexadecimal digits, or `N` with a character's name in braces.
A backslash before a line end yields nothing, and before any other character it
stands for itself. A carriage return, a line feed or a NUL that no backslash
escapes is refused, and so are escapes that are cut short or name nothing.

The main statements: text free of backslashes and refused characters means
itself (`decode_of_plain`), and decoding goes escape by escape (`decode_backslash`).
-/
import ManifestLint.Text.CharacterName

namespace ManifestLint.PN.StringLiteral

/-! ## 1. Digits -/

/-- The value of a hexadecimal digit. -/
def hexValue (c : Char) : Option Nat :=
  if '0' ≤ c && c ≤ '9' then some (c.toNat - '0'.toNat)
  else if 'a' ≤ c && c ≤ 'f' then some (c.toNat - 'a'.toNat + 10)
  else if 'A' ≤ c && c ≤ 'F' then some (c.toNat - 'A'.toNat + 10)
  else none

/-- The value of a row of hexadecimal digits. -/
def hexNumber (cs : List Char) : Option Nat :=
  cs.foldl (fun acc c => do return (← acc) * 16 + (← hexValue c)) (some 0)

/-- Octal digits. -/
def isOctal (c : Char) : Bool := '0' ≤ c && c ≤ '7'

/-- The value of a row of octal digits. -/
def octalNumber (cs : List Char) : Nat :=
  cs.foldl (fun acc c => acc * 8 + (c.toNat - '0'.toNat)) 0

/-- A number as a code point, if it is one. -/
def codePoint (n : Nat) : Option CodePoint :=
  if h : n < 0x110000 then some ⟨n, h⟩ else none

/-! ## 2. Escapes -/

/-- An escape of exactly `width` hexadecimal digits, after its letter. -/
def hexEscape (width : Nat) (cs : List Char) : Option (Text × Nat) := do
  let digits := cs.take width
  if digits.length = width then
    let p ← codePoint (← hexNumber digits)
    return ([p], width + 1)
  else none

/-- An escape of a character's name in braces, after its letter. -/
def nameEscape : List Char → Option (Text × Nat)
  | '\x7b' :: cs =>
    let name := cs.takeWhile (· ≠ '\x7d')
    if name.length < cs.length then do
      let p ← Text.ofCharacterName name
      return ([p], name.length + 3)
    else none
  | _ => none

/-- An escape of one to three octal digits. -/
def octalEscape (cs : List Char) : Option (Text × Nat) := do
  let digits := (cs.take 3).takeWhile isOctal
  let p ← codePoint (octalNumber digits)
  return ([p], digits.length)

/-- The escape that starts after a backslash: what it means and how many characters it takes. -/
def escape : List Char → Option (Text × Nat)
  | [] => none
  | c :: cs =>
    if c = '\x00' then none
    else if c = '\n' || c = '\r' then some ([], 1)
    else if c = 'a' then some ([CodePoint.ofChar '\x07'], 1)
    else if c = 'b' then some ([CodePoint.ofChar '\x08'], 1)
    else if c = 'f' then some ([CodePoint.ofChar '\x0c'], 1)
    else if c = 'n' then some ([CodePoint.ofChar '\x0a'], 1)
    else if c = 'r' then some ([CodePoint.ofChar '\x0d'], 1)
    else if c = 't' then some ([CodePoint.ofChar '\x09'], 1)
    else if c = 'v' then some ([CodePoint.ofChar '\x0b'], 1)
    else if c = '\\' || c = '\'' || c = '"' then some ([CodePoint.ofChar c], 1)
    else if c = 'x' then hexEscape 2 cs
    else if c = 'u' then hexEscape 4 cs
    else if c = 'U' then hexEscape 8 cs
    else if c = 'N' then nameEscape cs
    else if isOctal c then octalEscape (c :: cs)
    else some ([CodePoint.ofChar '\\', CodePoint.ofChar c], 1)

/-! ## 3. Whole literals -/

/-- Characters that only an escape may hold. -/
def isRefused (c : Char) : Bool := c = '\r' || c = '\n' || c = '\x00'

/-- What the characters between the quotes mean. -/
def decode : List Char → Option Text
  | [] => some []
  | c :: cs =>
    if c = '\\' then
      match escape cs with
      | none => none
      | some (meaning, n) => (decode (cs.drop n)).map (meaning ++ ·)
    else if isRefused c then none
    else (decode cs).map (CodePoint.ofChar c :: ·)
termination_by cs => cs.length
decreasing_by all_goals simp only [List.length_cons, List.length_drop]; omega

/-- The characters between the quotes of a string token. -/
def content (token : List Char) : List Char := token.tail.dropLast

@[simp] theorem decode_nil : decode [] = some [] := by
  simp [decode]

/-- After a backslash comes one escape. -/
theorem decode_backslash (cs : List Char) :
    decode ('\\' :: cs) =
      (escape cs).bind fun e => (decode (cs.drop e.2)).map (e.1 ++ ·) := by
  rw [decode]
  cases escape cs with
  | none => rfl
  | some e => rfl

/-- A character that is neither a backslash nor refused stands for itself. -/
theorem decode_cons_of_plain (c : Char) (cs : List Char) (hb : c ≠ '\\')
    (hr : isRefused c = false) : decode (c :: cs) = (decode cs).map (CodePoint.ofChar c :: ·) := by
  rw [decode]
  simp [hb, hr]

/-- Text free of backslashes and refused characters means itself. -/
theorem decode_of_plain (cs : List Char) (h : ∀ c ∈ cs, c ≠ '\\' ∧ isRefused c = false) :
    decode cs = some (Text.ofChars cs) := by
  induction cs with
  | nil => simp
  | cons c cs ih =>
    have hc := h c List.mem_cons_self
    rw [decode_cons_of_plain c cs hc.1 hc.2, ih fun d hd => h d (List.mem_cons_of_mem c hd)]
    rfl

@[simp] theorem content_quoted (cs : List Char) : content ('"' :: cs ++ ['"']) = cs := by
  simp [content]

end ManifestLint.PN.StringLiteral
