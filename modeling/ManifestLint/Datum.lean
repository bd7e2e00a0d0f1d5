/-
ManifestLint.Datum — the values that issues carry as arguments.

A rule passes texts; a caller of its own may pass a number, a truth value or
nothing, which messages spell `3`, `0.5`, `True`, `False` and `None`.
-/
import ManifestLint.Binary64.Shortest
import ManifestLint.Text

namespace ManifestLint

/-- A value passed along with an issue. -/
inductive Datum where
  | absent
  | truth (value : Bool)
  | integer (value : Int)
  | float (value : Binary64)
  | text (value : Text)
  deriving DecidableEq, Repr

namespace Datum

instance : Coe Text Datum := ⟨.text⟩

/-- How a message spells the value. -/
def spelled : Datum → Text
  | .absent => "None"
  | .truth true => "True"
  | .truth false => "False"
  | .integer i => Text.ofInt i
  | .float x => Text.ofChars x.text
  | .text t => t

@[simp] theorem spelled_text (t : Text) : (Datum.text t).spelled = t := rfl

/-- The number that a value counts as, in units of the least positive double: a truth value counts
as one or zero, and infinity lies beyond every double. -/
def number? : Datum → Option Int
  | .truth b => some (if b then Binary64.one else 0)
  | .integer i => some (i * Binary64.one)
  | .float x =>
    if x.magnitude < Binary64.infinity then
      some (if x.negative then -(Binary64.units x.magnitude) else Binary64.units x.magnitude)
    else none
  | _ => none

/-- Equality of values, numbers compared by what they count as. -/
def same (a b : Datum) : Bool :=
  match a.number?, b.number? with
  | some m, some n => m = n
  | none, none => a = b
  | _, _ => false

theorem same_refl (a : Datum) : a.same a = true := by
  simp only [same]
  cases a.number? <;> simp

end Datum

end ManifestLint
