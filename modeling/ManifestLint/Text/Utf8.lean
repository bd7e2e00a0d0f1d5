/-
ManifestLint.Text.Utf8 — reading the bytes of a text file.

`Utf8.decode` is strict: it accepts the shortest form of every character and
nothing else. Bytes that start no character are reported as the longest prefix
of a character that stands there (at least one byte), with its offset and the
reason why it goes no further. A byte-order mark is an ordinary character.

`unifyNewlines` then turns each carriage return, with the line feed after it if
there is one, into a line feed. Main statement: its result holds no carriage
return (`not_mem_unifyNewlines`).
-/

namespace ManifestLint.Text.Utf8

/-- Why bytes stop being a character. -/
inductive Reason where
  /-- No character starts with this byte. -/
  | startByte
  /-- A byte that cannot continue the character stands next. -/
  | continuation
  /-- The bytes end before the character does. -/
  | unexpectedEnd
  deriving DecidableEq, Repr

/-- A place where bytes are not UTF-8: the offset of the first bad byte and the bad bytes. -/
structure Fault where
  start : Nat
  bytes : List UInt8
  reason : Reason
  deriving DecidableEq, Repr

/-- The words for a reason. -/
def Reason.message : Reason → String
  | .startByte => "invalid start byte"
  | .continuation => "invalid continuation byte"
  | .unexpectedEnd => "unexpected end of data"

/-! ## One character -/

/-- What the first byte of a longer character promises: how many bytes follow, the least and the
greatest value of the second byte, and the bits that the first byte gives. -/
structure Lead where
  following : Nat
  least : Nat
  greatest : Nat
  bits : Nat

/-- Reads the first byte of a character of two to four bytes. The narrowed second bytes leave out
overlong forms, surrogates and numbers above `0x10FFFF`. -/
def Lead.ofByte? (b : Nat) : Option Lead :=
  if 0xC2 ≤ b && b ≤ 0xDF then some ⟨1, 0x80, 0xBF, b - 0xC0⟩
  else if 0xE0 ≤ b && b ≤ 0xEF then
    some ⟨2, if b = 0xE0 then 0xA0 else 0x80, if b = 0xED then 0x9F else 0xBF, b - 0xE0⟩
  else if 0xF0 ≤ b && b ≤ 0xF4 then
    some ⟨3, if b = 0xF0 then 0x90 else 0x80, if b = 0xF4 then 0x8F else 0xBF, b - 0xF0⟩
  else none

/-- Reads the bytes after the first one. An error tells how many of them were good. -/
def continued (lead : Lead) (good : Nat) : List UInt8 → Except (Nat × Reason) Nat
  | [] => if lead.following = 0 then .ok lead.bits else .error (good, .unexpectedEnd)
  | b :: rest =>
    if lead.following = 0 then .ok lead.bits
    else if lead.least ≤ b.toNat && b.toNat ≤ lead.greatest then
      continued ⟨lead.following - 1, 0x80, 0xBF, lead.bits * 64 + (b.toNat - 0x80)⟩ (good + 1) rest
    else .error (good, .continuation)

/-- Reads one character: the character and how many bytes follow its first one, or how many bytes
follow the first one in the bad sequence. -/
def character (first : UInt8) (rest : List UInt8) : Except (Nat × Reason) (Char × Nat) :=
  if first.toNat < 0x80 then .ok (Char.ofNat first.toNat, 0)
  else match Lead.ofByte? first.toNat with
    | none => .error (0, .startByte)
    | some lead => (continued lead 0 rest).map fun code => (Char.ofNat code, lead.following)

/-! ## Whole files -/

/-- Reads on from offset `start`, with the characters read so far in reverse. -/
def decodeFrom (start : Nat) (read : List Char) : List UInt8 → Except Fault (List Char)
  | [] => .ok read.reverse
  | b :: rest =>
    match character b rest with
    | .ok (c, n) => decodeFrom (start + 1 + n) (c :: read) (rest.drop n)
    | .error (n, reason) => .error ⟨start, b :: rest.take n, reason⟩
termination_by bytes => bytes.length
decreasing_by simp only [List.length_cons, List.length_drop]; omega

/-- The characters that the bytes encode. -/
def decode (bytes : List UInt8) : Except Fault (List Char) := decodeFrom 0 [] bytes

/-- The whole message for a fault: the byte or the range of offsets, then the reason. -/
def Fault.message (f : Fault) : String :=
  let place := match f.bytes with
    | [b] => s!"byte 0x{String.ofList (hexPair b.toNat)} in position {f.start}"
    | bs => s!"bytes in position {f.start}-{f.start + bs.length - 1}"
  s!"'utf-8' codec can't decode {place}: {f.reason.message}"
where
  /-- Two lower-case hexadecimal digits. -/
  hexPair (n : Nat) : List Char := [Nat.digitChar (n / 16), Nat.digitChar (n % 16)]

/-! ## Line ends -/

/-- Replaces line ends after `done`, which is in reverse. -/
def unifyNewlinesFrom (done : List Char) : List Char → List Char
  | [] => done.reverse
  | '\r' :: '\n' :: cs => unifyNewlinesFrom ('\n' :: done) cs
  | c :: cs => unifyNewlinesFrom ((if c = '\r' then '\n' else c) :: done) cs

/-- Every line end becomes one line feed. -/
def unifyNewlines (cs : List Char) : List Char := unifyNewlinesFrom [] cs

/-- No carriage return is left. -/
theorem not_mem_unifyNewlines (cs : List Char) : '\r' ∉ unifyNewlines cs := by
  suffices h : ∀ done : List Char, '\r' ∉ done → '\r' ∉ unifyNewlinesFrom done cs from
    h [] (by simp)
  intro done hdone
  fun_induction unifyNewlinesFrom done cs with
  | case1 done => simpa using hdone
  | case2 done cs ih => exact ih (by simp [hdone])
  | case3 done c cs _ ih =>
    refine ih ?_
    by_cases hc : c = '\r' <;> simp [hc, hdone]
    exact fun h => hc h.symm

end ManifestLint.Text.Utf8
