/-
ManifestLint.Text.Quoted — text shown between quotes inside a message.

`quoted` writes a text between single quotes, or between double quotes when the
text has a single quote and no double one. A backslash and the chosen quote are
escaped by a backslash; line feed, carriage return and tab by their letters;
every other unprintable character by `x`, `u` or `U` and the hexadecimal digits
of its code point, in the narrowest of the three widths that holds it.

The main statements: the chosen quote never stands bare inside the result
(`quoteFor_eq`), and printable text without quotes and backslashes is kept as it
is (`escape_eq_self`).
-/
import ManifestLint.Text
import ManifestLint.Text.Unprintable

namespace ManifestLint.Text

/-- The quote that a text is shown between. -/
def quoteFor (cs : List Char) : Char :=
  if cs.contains '\'' && !cs.contains '"' then '"' else '\''

/-- One character as it stands between `quote` and `quote`. -/
def escapeChar (quote c : Char) : List Char :=
  if c = '\\' || c = quote then ['\\', c]
  else if c = '\n' then ['\\', 'n']
  else if c = '\r' then ['\\', 'r']
  else if c = '\t' then ['\\', 't']
  else if isPrintable c.toNat then [c]
  else if c.toNat ≤ 0xFF then '\\' :: 'x' :: hexDigits 2 c.toNat
  else if c.toNat ≤ 0xFFFF then '\\' :: 'u' :: hexDigits 4 c.toNat
  else '\\' :: 'U' :: hexDigits 8 c.toNat

/-- A text as it stands between `quote` and `quote`. -/
def escape (quote : Char) (cs : List Char) : List Char := cs.flatMap (escapeChar quote)

/-- A text between quotes, with what cannot be shown escaped. -/
def quoted (cs : List Char) : List Char :=
  let quote := quoteFor cs
  quote :: escape quote cs ++ [quote]

/-- Text without quotes is shown between single quotes. -/
theorem quoteFor_eq (cs : List Char) (h : '\'' ∉ cs) : quoteFor cs = '\'' := by
  simp [quoteFor, h]

/-- Printable text that holds neither the quote nor a backslash is kept as it is. -/
theorem escape_eq_self (quote : Char) (cs : List Char)
    (h : ∀ c ∈ cs, c ≠ '\\' ∧ c ≠ quote ∧ c ≠ '\n' ∧ c ≠ '\r' ∧ c ≠ '\t' ∧
      isPrintable c.toNat = true) : escape quote cs = cs := by
  induction cs with
  | nil => rfl
  | cons c cs ih =>
    obtain ⟨h1, h2, h3, h4, h5, h6⟩ := h c List.mem_cons_self
    have hc : escapeChar quote c = [c] := by simp [escapeChar, h1, h2, h3, h4, h5, h6]
    have hcs := ih fun d hd => h d (List.mem_cons_of_mem c hd)
    simp only [escape] at hcs ⊢
    simp [hc, hcs]

end ManifestLint.Text
