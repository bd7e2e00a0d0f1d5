/-
ManifestLint.Check.Session — using one checker step by step.

A session runs passes, accepts issues between them, changes the settings of passes to
come, and asks for what there is. Every step is answered; one that fails is
answered by its error and leaves the checker as it was.

The main statements: a failing step changes nothing (`take_validate_unread`,
`take_accept_missing`), and steps are answered one after another (`run_append`).
-/
import ManifestLint.Check.Checker
import ManifestLint.PN.Reading

namespace ManifestLint.Checker

/-- One step of a session. A pass is given the tree to check, or why there is none. -/
inductive Step where
  | validate (root : Except PN.ReadError Tree)
  | issues
  | container
  | accept (code : Code) (node : Tree) (arguments : Arguments)
  | setStrictness (strictness : Strictness)
  | setFile (file : Option Text)

/-- The answer to a step. -/
inductive Answer where
  | issues (issues : List Diagnostic)
  | container (container : Option Occurrence)
  | count (count : Nat)
  | strictness (strictness : Strictness)
  | file (file : Option Text)
  | unread (error : PN.ReadError)
  | missing (field : MissingField)

/-- Takes one step. -/
def take (c : Checker) : Step → Answer × Checker
  | .validate (.error e) => (.unread e, c)
  | .validate (.ok root) =>
    match c.validate root with
    | .ok c' => (.issues c'.issues, c')
    | .error e => (.missing e, c)
  | .issues => (.issues c.issues, c)
  | .container => (.container c.container, c)
  | .accept code node arguments =>
    match c.accept code node arguments with
    | .ok c' => (.count c'.issues.length, c')
    | .error e => (.missing e, c)
  | .setStrictness s => (.strictness s, c.setStrictness s)
  | .setFile file => (.file file, c.setFile file)

/-- Takes steps one after another. -/
def run (c : Checker) : List Step → List Answer × Checker
  | [] => ([], c)
  | s :: ss =>
    let (answer, c') := c.take s
    let (answers, last) := c'.run ss
    (answer :: answers, last)

/-- A pass over a text that cannot be read changes nothing. -/
theorem take_validate_unread (c : Checker) (e : PN.ReadError) :
    c.take (.validate (.error e)) = (.unread e, c) := rfl

/-- Accepting an issue without an argument that its message needs changes nothing. -/
theorem take_accept_missing (c : Checker) (code : Code) (node : Tree) (arguments : Arguments)
    (e : MissingField) (h : c.accept code node arguments = .error e) :
    c.take (.accept code node arguments) = (.missing e, c) := by
  simp [take, h]

/-- Steps are answered one after another. -/
theorem run_append (c : Checker) (ss ts : List Step) :
    c.run (ss ++ ts) =
      ((c.run ss).1 ++ ((c.run ss).2.run ts).1, ((c.run ss).2.run ts).2) := by
  induction ss generalizing c with
  | nil => rfl
  | cons s ss ih => simp [run, ih]

end ManifestLint.Checker
