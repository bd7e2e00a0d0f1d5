/-
ManifestLint.Check.Checker — checkers: rules run over trees, pass after pass.

A checker of manifests runs the manifest rules; a checker of workflows also looks
at the styles of activities. Each pass walks one tree from the root and collects
what the rules report in a sink of its own, made with the strictness and the file
that are set when the pass begins.

The main statements: a pass leaves no way down behind (`path_of_validate`), its
issues are those of the visits of the tree in order (`validate_eq`), and changes of
strictness and file leave the issues at hand alone (`issues_setStrictness`,
`issues_setFile`).
-/
import ManifestLint.Check.Dispatch
import ManifestLint.Check.Rule
import ManifestLint.Check.Walk
import ManifestLint.Issue.Sink

namespace ManifestLint

/-! ## 1. Rule sets -/

/-- What is being checked. -/
inductive Mode where
  | manifest
  | workflow
  deriving DecidableEq, Repr

namespace Mode

/-- What can be decided of each mode can be decided of both. -/
instance decidableForall {P : Mode → Prop} [DecidablePred P] : Decidable (∀ m, P m) :=
  decidable_of_decidable_of_iff (p := P manifest ∧ P workflow)
    ⟨fun h m => by cases m with
      | manifest => exact h.1
      | workflow => exact h.2,
    fun h => ⟨h manifest, h workflow⟩⟩

/-- The dispatch table of the manifest rules. -/
def manifestTable : DispatchTable Rule where
  exact := [(.assignment, .assignment), (.attr, .attr), (.splat, .splat), (.block, .block),
    (.call, .call)]
  groups := [(.binary, .binary)]

/-- The dispatch table of a mode: workflows add an entry for activities. -/
def table : Mode → DispatchTable Rule
  | manifest => manifestTable
  | workflow => { manifestTable with exact := manifestTable.exact ++ [(.activity, .activity)] }

/-- What is reported on a node under a parent. -/
def reports (m : Mode) (parent : Option Occurrence) (o : Occurrence) : List Report :=
  match m.table.routineFor o.tree with
  | some r => r.reports parent o
  | none => []

/-- The name of the checker of a mode in logs. -/
def checkerName : Mode → String
  | manifest => "Checker"
  | workflow => "WorkflowChecker"

end Mode

namespace Sink

/-- Reports one finding of a rule. -/
def reportOn (s : Sink) (r : Report) : Except MissingField Sink :=
  s.report r.code r.site.tree.location (some r.site.position) r.arguments

/-- Reports the findings of a rule one after another. -/
def reportAll (s : Sink) : List Report → Except MissingField Sink
  | [] => .ok s
  | r :: rs => (s.reportOn r).bind fun s' => s'.reportAll rs

end Sink

/-! ## 2. Checkers -/

/-- A checker: what it checks, the settings of its next pass, and what its last pass left. -/
structure Checker where
  mode : Mode
  strictness : Strictness
  file : Option Text
  path : List Occurrence
  sink : Sink

namespace Checker

/-- A checker before its first pass. -/
def new (mode : Mode) (strictness : Strictness) (file : Option Text) : Checker where
  mode
  strictness
  file
  path := []
  sink := .empty (.forStrictness strictness) file

/-- The issues of the last pass and of what was accepted since. -/
def issues (c : Checker) : List Diagnostic := c.sink.issues

/-- The parent of the node being checked; none between passes. -/
def container (c : Checker) : Option Occurrence := c.path.head?

/-- Sets the strictness of passes to come. -/
def setStrictness (c : Checker) (s : Strictness) : Checker := { c with strictness := s }

/-- Sets the file of passes to come. -/
def setFile (c : Checker) (file : Option Text) : Checker := { c with file := file }

/-- One step of a pass: reports what the rule for a node finds. -/
def step (mode : Mode) (parent : Option Occurrence) (o : Occurrence) (s : Sink) :
    Except MissingField Sink :=
  s.reportAll (mode.reports parent o)

/-- Runs a pass over a tree. The checker afterwards holds the issues of that pass. -/
def validate (c : Checker) (root : Tree) : Except MissingField Checker :=
  (Walk.run (step c.mode) root (.empty (.forStrictness c.strictness) c.file)).map fun w =>
    { c with path := w.path, sink := w.state }

/-- Accepts an issue about a node between passes. A failure leaves the checker as it is. -/
def accept (c : Checker) (code : Code) (node : Tree) (arguments : Arguments) :
    Except MissingField Checker :=
  (c.sink.report code node.location none arguments).map fun s => { c with sink := s }

@[simp] theorem issues_setStrictness (c : Checker) (s : Strictness) :
    (c.setStrictness s).issues = c.issues := rfl

@[simp] theorem issues_setFile (c : Checker) (file : Option Text) :
    (c.setFile file).issues = c.issues := rfl

@[simp] theorem issues_new (mode : Mode) (strictness : Strictness) (file : Option Text) :
    (new mode strictness file).issues = [] := rfl

/-- A pass reports what the visits of the tree give, in order. -/
theorem validate_eq (c : Checker) (root : Tree) :
    c.validate root =
      (Walk.foldVisits (step c.mode) root.visits
        (.empty (.forStrictness c.strictness) c.file)).map
          fun s => { c with path := [], sink := s } := by
  simp only [validate, Walk.run, Walk.walkAt_eq_foldVisits, Tree.visits, Walk.container,
    List.head?_nil]
  cases Walk.foldVisits (step c.mode) (root.visitsAt none [])
    (.empty (.forStrictness c.strictness) c.file) <;> rfl

/-- A pass leaves no way down behind. -/
theorem path_of_validate {c c' : Checker} {root : Tree} (h : c.validate root = .ok c') :
    c'.path = [] := by
  rw [validate_eq] at h
  cases hf : Walk.foldVisits (step c.mode) root.visits
    (.empty (.forStrictness c.strictness) c.file) with
  | error e => simp [hf, Except.map] at h
  | ok s => simp [hf, Except.map] at h; rw [← h]

end Checker

/-! ## 3. Traces -/

/-- What happened when a node was dispatched. -/
structure TraceEntry (ρ : Type) where
  parent : Option Occurrence
  node : Occurrence
  routine : Option ρ

namespace DispatchTable

/-- The dispatches of a walk, in order, with the routine that each node is given to. -/
def trace {ρ : Type} (table : DispatchTable ρ) (root : Tree) : List (TraceEntry ρ) :=
  let record (parent : Option Occurrence) (o : Occurrence) (done : List (TraceEntry ρ)) :
      Except Empty (List (TraceEntry ρ)) :=
    .ok (⟨parent, o, table.routineFor o.tree⟩ :: done)
  match Walk.run record root [] with
  | .ok w => w.state.reverse

end DispatchTable

/-- The style of the activity that a rule looks at, if the rule is about styles and knows it. -/
def Rule.style? (r : Rule) (o : Occurrence) : Option Style :=
  match r, o.tree.head? with
  | .activity, some (.activity style _) => Style.ofText? style
  | _, _ => none

end ManifestLint
