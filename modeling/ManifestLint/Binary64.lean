/-
ManifestLint.Binary64 — IEEE 754 double-precision numbers as literals denote them.

A number is its sign and the other 63 bits. Finite magnitudes are whole multiples
of the least positive double, `2 ^ (-1074)`, so reading a decimal is exact integer
division followed by one rounding: to nearest, a half going to the even neighbour.
Powers are written with `Nat.pow`, which means the same whatever else is imported.

The main statements: rounding is within half a unit (`roundDiv_le`,
`le_roundDiv`), zero digits read as zero (`magnitudeOfDecimal_zero`), and numeric equality
does not tell the two zeros apart (`numericEq_zero`).
-/

namespace ManifestLint

/-- A double: its sign and its exponent and fraction bits as one number. -/
structure Binary64 where
  negative : Bool
  magnitude : Nat
  deriving DecidableEq, Repr

namespace Binary64

/-- The exponent and fraction bits of infinity. -/
def infinity : Nat := 0x7FF * Nat.pow 2 52

/-- All 64 bits, the sign first. -/
def bits (x : Binary64) : Nat := (if x.negative then Nat.pow 2 63 else 0) + x.magnitude

/-- The double with the given bits. -/
def ofBits (bits : Nat) : Binary64 := ⟨Nat.pow 2 63 ≤ bits % Nat.pow 2 64, bits % Nat.pow 2 63⟩

/-- Equality of numbers: the two zeros are equal, and what is not a number equals nothing. -/
def numericEq (x y : Binary64) : Bool :=
  x.magnitude ≤ infinity && y.magnitude ≤ infinity &&
    ((x.magnitude = 0 && y.magnitude = 0) || x == y)

theorem numericEq_zero (a b : Bool) : numericEq ⟨a, 0⟩ ⟨b, 0⟩ = true := by
  simp [numericEq, infinity]

/-! ## Reading a decimal -/

/-- The whole number nearest to `num / den`, the even one of two. -/
def roundDiv (num den : Nat) : Nat :=
  let q := num / den
  let twice := 2 * (num % den)
  if twice < den || (twice = den && q % 2 = 0) then q else q + 1

theorem roundDiv_le (num den : Nat) : 2 * (roundDiv num den * den) ≤ 2 * num + den := by
  have h := Nat.div_add_mod num den
  have hc : den * (num / den) = num / den * den := Nat.mul_comm _ _
  simp only [roundDiv]
  split
  · omega
  · rename_i hr
    simp only [Bool.or_eq_true, decide_eq_true_eq, Bool.and_eq_true, not_or] at hr
    rw [Nat.add_mul]
    omega

theorem le_roundDiv (num den : Nat) (hd : 0 < den) :
    2 * num ≤ 2 * (roundDiv num den * den) + den := by
  have h := Nat.div_add_mod num den
  have hm := Nat.mod_lt num hd
  have hc : den * (num / den) = num / den * den := Nat.mul_comm _ _
  simp only [roundDiv]
  split
  · rename_i hr
    simp only [Bool.or_eq_true, decide_eq_true_eq, Bool.and_eq_true] at hr
    omega
  · rw [Nat.add_mul]
    omega

/-- The magnitude bits nearest to `digits * 10 ^ exponent`. The quotient counts units of
`2 ^ (-1074)`; it is rounded to the 53 bits of a significand, and `shift` is then the exponent
field but one. Decimals beyond every double, or below half of the least one, are told by their
length alone, so a huge exponent is never raised to. -/
def magnitudeOfDecimal (digits : Nat) (exponent : Int) : Nat :=
  let length : Int := (Nat.toDigits 10 digits).length
  if digits = 0 || exponent + length < -330 then 0
  else if 330 < exponent + length then infinity
  else
    let num := digits * Nat.pow 10 exponent.toNat * Nat.pow 2 1074
    let den := Nat.pow 10 (-exponent).toNat
    let shift := Nat.log2 (num / den) - 52
    min (shift * Nat.pow 2 52 + roundDiv num (den * Nat.pow 2 shift)) infinity

theorem magnitudeOfDecimal_zero (exponent : Int) : magnitudeOfDecimal 0 exponent = 0 := by
  simp [magnitudeOfDecimal]

/-- The double nearest to `± digits * 10 ^ exponent`. -/
def ofDecimal (negative : Bool) (digits : Nat) (exponent : Int) : Binary64 :=
  ⟨negative, magnitudeOfDecimal digits exponent⟩

end Binary64

end ManifestLint
