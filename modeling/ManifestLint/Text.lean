/-
ManifestLint.Text — text as a list of code points.

A string literal may spell any code point below `0x110000`, half of a surrogate
pair included, so decoded text is a list of code points rather than a `String`.
`Text.ofString` reads an ordinary string; `Text.toString` writes one: the two halves
of a pair side by side are the character that they encode, and a half that stands
alone is spelled as a backslash escape, since no `String` holds it.

The main statement: characters come back as they went in (`toChars_ofChars`).
-/

namespace ManifestLint

/-- A code point: any number below `0x110000`, surrogates included. -/
abbrev CodePoint := Fin 0x110000

/-- Text is a list of code points. -/
abbrev Text := List CodePoint

namespace CodePoint

/-- The code point of a character. -/
def ofChar (c : Char) : CodePoint :=
  ⟨c.toNat, by
    have h := c.valid
    simp only [UInt32.isValidChar, Nat.isValidChar] at h
    simp only [Char.toNat, UInt32.toNat] at *
    omega⟩

@[simp] theorem val_ofChar (c : Char) : (ofChar c).val = c.toNat := rfl

/-- The first half of a surrogate pair. -/
def isHighSurrogate (p : CodePoint) : Bool := 0xD800 ≤ p.val && p.val < 0xDC00

/-- The second half of a surrogate pair. -/
def isLowSurrogate (p : CodePoint) : Bool := 0xDC00 ≤ p.val && p.val < 0xE000

/-- The character that a surrogate pair encodes. -/
def ofPair (high low : CodePoint) : Char :=
  Char.ofNat (0x10000 + (high.val - 0xD800) * 0x400 + (low.val - 0xDC00))

/-- No character is half of a surrogate pair. -/
theorem isHighSurrogate_ofChar (c : Char) : (ofChar c).isHighSurrogate = false := by
  have h : c.toNat.isValidChar := c.valid
  simp only [Nat.isValidChar] at h
  rw [isHighSurrogate, val_ofChar, Bool.and_eq_false_iff, decide_eq_false_iff_not,
    decide_eq_false_iff_not]
  omega

/-- The character of a code point, unless it is a surrogate. -/
def toChar? (p : CodePoint) : Option Char :=
  if h : p.val.isValidChar then some (Char.ofNatAux p.val h) else none

theorem toChar?_ofChar (c : Char) : (ofChar c).toChar? = some c := by
  have h : (ofChar c).val.isValidChar := c.valid
  rw [toChar?, dif_pos h, Option.some.injEq]
  apply Char.ext
  apply UInt32.toNat.inj
  rfl

/-- An ASCII decimal digit. -/
def isDigit (p : CodePoint) : Bool := 0x30 ≤ p.val && p.val ≤ 0x39

end CodePoint

/-! ## Hexadecimal spelling -/

/-- One lower-case hexadecimal digit. -/
def hexDigit (n : Nat) : Char :=
  if n < 10 then Char.ofNat (0x30 + n) else Char.ofNat (0x61 + (n - 10))

/-- The last `width` hexadecimal digits of `n`, leading zeros kept. -/
def hexDigits : (width : Nat) → (n : Nat) → List Char
  | 0, _ => []
  | width + 1, n => hexDigits width (n / 16) ++ [hexDigit (n % 16)]

theorem length_hexDigits (width n : Nat) : (hexDigits width n).length = width := by
  induction width generalizing n with
  | zero => rfl
  | succ w ih => simp [hexDigits, ih]

namespace Text

/-- The code points of a list of characters. -/
def ofChars (cs : List Char) : Text := cs.map CodePoint.ofChar

/-- The code points of a string. -/
def ofString (s : String) : Text := ofChars s.toList

@[simp] theorem ofChars_nil : ofChars [] = [] := rfl

@[simp] theorem ofChars_append (a b : List Char) : ofChars (a ++ b) = ofChars a ++ ofChars b := by
  simp [ofChars]

@[simp] theorem length_ofChars (cs : List Char) : (ofChars cs).length = cs.length := by
  simp [ofChars]

/-- Different characters are different code points, so a text has one spelling as characters. -/
theorem ofChars_inj {a b : List Char} (h : ofChars a = ofChars b) : a = b := by
  have inj : ∀ x y : Char, CodePoint.ofChar x = CodePoint.ofChar y → x = y := by
    intro x y hxy
    have := CodePoint.toChar?_ofChar x
    rw [hxy, CodePoint.toChar?_ofChar y] at this
    exact (Option.some.inj this).symm
  exact (List.map_inj_right fun {x y} h => inj x y h).mp h

instance : Coe String Text := ⟨ofString⟩

/-- Decimal text of an integer: a minus sign when negative, no leading zeros. -/
def ofInt (i : Int) : Text := ofString (toString i)

/-- How a code point is written by itself where only characters can stand: a surrogate becomes a
backslash, `u` and its four hexadecimal digits. -/
def writeCodePoint (p : CodePoint) : List Char :=
  match p.toChar? with
  | some c => [c]
  | none => '\\' :: 'u' :: hexDigits 4 p.val

/-- The characters of a text: surrogate pairs joined, other surrogates escaped. -/
def toChars : Text → List Char
  | [] => []
  | [p] => writeCodePoint p
  | p :: q :: ts =>
    if p.isHighSurrogate && q.isLowSurrogate then CodePoint.ofPair p q :: toChars ts
    else writeCodePoint p ++ toChars (q :: ts)

/-- A text as a string: surrogate pairs joined, other surrogates escaped. -/
def toString (t : Text) : String := String.ofList t.toChars

/-- A code point that starts no pair is written by itself. -/
theorem toChars_cons (p : CodePoint) (t : Text) (h : p.isHighSurrogate = false) :
    toChars (p :: t) = writeCodePoint p ++ toChars t := by
  cases t with
  | nil => simp [toChars]
  | cons q ts => simp [toChars, h]

/-- The halves of a pair side by side are the character that they encode. -/
theorem toChars_pair (high low : CodePoint) (t : Text) (hh : high.isHighSurrogate = true)
    (hl : low.isLowSurrogate = true) :
    toChars (high :: low :: t) = CodePoint.ofPair high low :: toChars t := by
  simp [toChars, hh, hl]

/-- Characters come back as they went in. -/
theorem toChars_ofChars (cs : List Char) : toChars (ofChars cs) = cs := by
  induction cs with
  | nil => rfl
  | cons c cs ih =>
    have hc : writeCodePoint (CodePoint.ofChar c) = [c] := by
      simp [writeCodePoint, CodePoint.toChar?_ofChar]
    simp only [ofChars, List.map_cons] at ih ⊢
    rw [toChars_cons _ _ (CodePoint.isHighSurrogate_ofChar c), hc, ih]
    rfl

/-- Texts set one after another with `between` in the gaps. -/
def join (between : Text) : List Text → Text
  | [] => []
  | [t] => t
  | t :: u :: ts => t ++ between ++ join between (u :: ts)

/-- Lines, each ended by a line feed. -/
def unlines (ts : List Text) : Text := ts.flatMap (· ++ ofChars ['\n'])

end Text

end ManifestLint
