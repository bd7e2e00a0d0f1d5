/-
ManifestLint.Binary64.Shortest — the shortest decimal text of a double.

The text has the fewest digits that read back as the number, and of those with
that many digits the nearest to it. Numbers from `1e-4` up to `1e16` are written in
positions, with at least one digit after the point; all others with an exponent of
at least two digits.

The main statement: digits that are chosen read back (`magnitudeOfDecimal_of_digitsAt`).
-/
import ManifestLint.Binary64

namespace ManifestLint.Binary64

/-! ## 1. Choosing digits -/

/-- How many times the least positive double goes into one. -/
def one : Nat := Nat.pow 2 1074

/-- A finite magnitude as a multiple of the least positive double. -/
def units (magnitude : Nat) : Nat :=
  let normal := Nat.pow 2 52
  if magnitude < normal then magnitude
  else (normal + magnitude % normal) * Nat.pow 2 (magnitude / normal - 1)

/-- The power of ten of the first digit of `num / den`, or one less. -/
def leadingExponent (num den : Nat) : Int :=
  if den ≤ num then ((Nat.toDigits 10 (num / den)).length : Int) - 1
  else -(Nat.toDigits 10 (den / num)).length

/-- The distance between `num / den` and `digits * 10 ^ exponent`, as a multiple of what depends on
the exponent alone. -/
def distance (num den digits : Nat) (exponent : Int) : Nat :=
  let a := num * Nat.pow 10 (-exponent).toNat
  let b := digits * den * Nat.pow 10 exponent.toNat
  (a - b) + (b - a)

/-- Of a number and its successor the one that fits, or the nearer one if both do; the even one if
both are equally near. -/
def nearer (fits : Nat → Bool) (distance : Nat → Nat) (low : Nat) : Option Nat :=
  match fits low, fits (low + 1) with
  | true, true =>
    if distance low < distance (low + 1) || (distance low = distance (low + 1) && low % 2 = 0) then
      some low
    else some (low + 1)
  | true, false => some low
  | false, true => some (low + 1)
  | false, false => none

theorem fits_of_nearer {fits : Nat → Bool} {distance : Nat → Nat} {low d : Nat}
    (h : nearer fits distance low = some d) : fits d = true := by
  unfold nearer at h
  split at h
  · rename_i h0 h1
    split at h
    · cases h; exact h0
    · cases h; exact h1
  · rename_i h0 _; cases h; exact h0
  · rename_i h1; cases h; exact h1
  · cases h

/-- The power of ten of the last of `count` digits of a magnitude. -/
def lastExponent (magnitude count : Nat) : Int :=
  leadingExponent (units magnitude) one - (count - 1 : Nat)

/-- The digits down to a power of ten that read back as a magnitude, if there are any. -/
def digitsAt (magnitude : Nat) (exponent : Int) : Option Nat :=
  nearer (fun d => magnitudeOfDecimal d exponent = magnitude)
    (fun d => distance (units magnitude) one d exponent)
    (units magnitude * Nat.pow 10 (-exponent).toNat / (one * Nat.pow 10 exponent.toNat))

/-- Digits that are chosen read back. -/
theorem magnitudeOfDecimal_of_digitsAt {magnitude d : Nat} {exponent : Int}
    (h : digitsAt magnitude exponent = some d) : magnitudeOfDecimal d exponent = magnitude := by
  unfold digitsAt at h
  exact of_decide_eq_true (fits_of_nearer h)

/-- The decimal with `count` digits that reads back as a magnitude, if there is one, with its power
of ten. -/
def atLength (magnitude count : Nat) : Option (Nat × Int) :=
  (digitsAt magnitude (lastExponent magnitude count)).map fun d =>
    (d, lastExponent magnitude count)

/-- The shortest decimal that reads back as a finite magnitude. Seventeen digits always do. -/
def shortest (magnitude : Nat) : Nat × Int :=
  ((List.range 17).findSome? fun n => atLength magnitude (n + 1)).getD (0, 0)

/-! ## 2. Writing them -/

/-- An exponent: a sign and at least two digits. -/
def exponentText (e : Int) : List Char :=
  let digits := Nat.toDigits 10 e.natAbs
  (if e < 0 then '-' else '+') :: List.replicate (2 - digits.length) '0' ++ digits

/-- Digits without the zeros at their end. -/
def trimmed (digits : List Char) : List Char := (digits.reverse.dropWhile (· = '0')).reverse

/-- The text of a finite magnitude that is not zero, from digits and the power of ten of the first
one. -/
def digitsText (digits : List Char) (first : Int) : List Char :=
  if -4 ≤ first && first < 16 then
    if first < 0 then '0' :: '.' :: List.replicate (-first - 1).toNat '0' ++ digits
    else
      let whole := digits.take (first.toNat + 1)
      let fraction := digits.drop (first.toNat + 1)
      whole ++ List.replicate (first.toNat + 1 - whole.length) '0' ++ '.' ::
        (if fraction = [] then ['0'] else fraction)
  else
    let fraction := digits.drop 1
    digits.take 1 ++ (if fraction = [] then [] else '.' :: fraction) ++ 'e' :: exponentText first

/-- The text of a double. -/
def text (x : Binary64) : List Char :=
  if infinity < x.magnitude then ['n', 'a', 'n']
  else
    let sign := if x.negative then ['-'] else []
    if x.magnitude = infinity then sign ++ ['i', 'n', 'f']
    else if x.magnitude = 0 then sign ++ ['0', '.', '0']
    else
      let (d, e) := shortest x.magnitude
      let digits := Nat.toDigits 10 d
      sign ++ digitsText (trimmed digits) (e + (digits.length - 1 : Nat))

end ManifestLint.Binary64
