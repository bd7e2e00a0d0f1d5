/-
ManifestLint.Issue.Template — messages with named fields.

A template is words and fields in turn. Filling replaces each field by the text of
the argument of that name, once: braces inside an argument stay as they are. A
field without an argument makes filling fail, and the error names the first such
field from left to right.

The main statements: filling succeeds exactly when every field has an argument
(`fill_isOk_iff`), and the field that an error names is one that has none
(`lookup_of_fill_error`).
-/
import ManifestLint.Datum

namespace ManifestLint

/-- A stretch of a message. -/
inductive Piece where
  | words (text : String)
  | field (name : String)
  deriving DecidableEq, Repr

/-- A message with fields to be filled. -/
abbrev Template := List Piece

/-- What fields are filled with, by name. -/
abbrev Arguments := List (String × Datum)

/-- A field of a template that no argument fills. -/
structure MissingField where
  name : String
  deriving DecidableEq, Repr

namespace Template

/-- The names of the fields, from left to right. -/
def fields : Template → List String
  | [] => []
  | .words _ :: ps => fields ps
  | .field name :: ps => name :: fields ps

/-- The message that the arguments make of a template. -/
def fill (arguments : Arguments) : Template → Except MissingField Text
  | [] => .ok []
  | .words t :: ps => (fill arguments ps).map (Text.ofString t ++ ·)
  | .field name :: ps =>
    match arguments.lookup name with
    | some d => (fill arguments ps).map (d.spelled ++ ·)
    | none => .error ⟨name⟩

/-- The template as it is written, fields in braces. -/
def source : Template → String
  | [] => ""
  | .words t :: ps => t ++ source ps
  | .field name :: ps => "\x7b" ++ name ++ "\x7d" ++ source ps

/-- Filling succeeds exactly when every field has an argument. -/
theorem fill_isOk_iff (arguments : Arguments) (t : Template) :
    (∃ m, fill arguments t = .ok m) ↔ ∀ name ∈ fields t, (arguments.lookup name).isSome := by
  induction t with
  | nil => simp [fill, fields]
  | cons p ps ih =>
    cases p with
    | words w =>
      simp only [fill, fields, ← ih]
      cases fill arguments ps <;> simp [Except.map]
    | field name =>
      simp only [fill, fields, List.mem_cons, forall_eq_or_imp, ← ih]
      cases arguments.lookup name with
      | none => simp
      | some d => cases fill arguments ps <;> simp [Except.map]

/-- The field that an error names has no argument. -/
theorem lookup_of_fill_error (arguments : Arguments) (t : Template) (e : MissingField)
    (h : fill arguments t = .error e) : arguments.lookup e.name = none := by
  induction t with
  | nil => simp [fill] at h
  | cons p ps ih =>
    cases p with
    | words w =>
      simp only [fill] at h
      cases hf : fill arguments ps with
      | ok m => simp [hf, Except.map] at h
      | error e' => simp [hf, Except.map] at h; exact ih (by rw [hf, h])
    | field name =>
      simp only [fill] at h
      cases hl : arguments.lookup name with
      | none => simp [hl] at h; rw [← h]; exact hl
      | some d =>
        simp only [hl] at h
        cases hf : fill arguments ps with
        | ok m => simp [hf, Except.map] at h
        | error e' => simp [hf, Except.map] at h; exact ih (by rw [hf, h])

end Template

end ManifestLint
