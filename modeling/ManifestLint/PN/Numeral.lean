/-
ManifestLint.PN.Numeral — the values of number tokens.

A numeral with a point or an exponent is a double, any other one is an integer.
Integers are read if they have at most `digitLimit` digits, leading zeros
counted and the sign not.

The main statement: an integer that is read is the value of its digits
(`integer_eq_ok`).
-/
import ManifestLint.Binary64
import ManifestLint.PN.Token

namespace ManifestLint.PN.Numeral

/-- The most digits that an integer may have. -/
def digitLimit : Nat := 4300

/-- Holds of numerals that stand for doubles. -/
def isFloat (cs : List Char) : Bool := cs.any fun c => c = '.' || isExponentMark c

/-- Holds of numerals with a minus sign. -/
def isNegative (cs : List Char) : Bool := cs.head? = some '-'

/-- A numeral without its sign. -/
def unsigned (cs : List Char) : List Char := if cs.head?.any isSign then cs.tail else cs

/-- The value of a row of decimal digits. -/
def natural (cs : List Char) : Nat := cs.foldl (fun acc c => acc * 10 + (c.toNat - '0'.toNat)) 0

/-- The value of a row of decimal digits that may have a sign. -/
def signed (cs : List Char) : Int :=
  if isNegative cs then -(natural (unsigned cs)) else natural (unsigned cs)

/-- The integer that a numeral stands for, or the number of its digits if they are too many. -/
def integer (cs : List Char) : Except Nat Int :=
  let digits := (unsigned cs).length
  if digits ≤ digitLimit then .ok (signed cs) else .error digits

/-- The double that a numeral stands for. -/
def float (cs : List Char) : Binary64 :=
  let body := unsigned cs
  let whole := body.takeWhile isDigit
  let afterWhole := body.dropWhile isDigit
  let fraction := if afterWhole.head? = some '.' then afterWhole.tail.takeWhile isDigit else []
  let exponent := (afterWhole.dropWhile fun c => !isExponentMark c).tail
  Binary64.ofDecimal (isNegative cs) (natural (whole ++ fraction))
    (signed exponent - fraction.length)

/-- An integer with few enough digits is the value of its digits. -/
theorem integer_eq_ok (cs : List Char) (h : (unsigned cs).length ≤ digitLimit) :
    integer cs = .ok (signed cs) := by
  simp [integer, h]

end ManifestLint.PN.Numeral
