/-
ManifestLint.Check.Rule — the rules of manifests and what they report.

A rule looks at a node and its parent and answers with reports: a code, the
occurrence it is about, and the arguments of the message. Besides the node itself a
report can be about its parent (a splat in a resource), or about something below
it (an assignment's targets, operands that are no values, a statement without
effect, the functor of a call).

The main statement: a block reports one statement at most, and it stands before
the last one (`deadStatement?_lt`).
-/
import ManifestLint.Tree.Effect
import ManifestLint.Tree.Phrase
import ManifestLint.Issue.Catalogue
import ManifestLint.Tree.Position

namespace ManifestLint

/-! ## 1. Names and styles -/

namespace Text

/-- Holds of the decimal numerals: a zero, or digits that start with another one. -/
def isNumeral : Text → Bool
  | [] => false
  | p :: ps => p.isDigit && ps.all CodePoint.isDigit && (p ≠ CodePoint.ofChar '0' || ps.isEmpty)

/-- Holds of texts with two colons side by side. -/
def hasDoubleColon : Text → Bool
  | p :: q :: ps =>
    (p = CodePoint.ofChar ':' && q = CodePoint.ofChar ':') || hasDoubleColon (q :: ps)
  | _ => false

end Text

/-- The styles of activities. -/
inductive Style where
  | action
  | resource
  | stateHandler
  | workflow
  deriving DecidableEq, Repr

namespace Style

/-- Every style. -/
def all : List Style := [action, resource, stateHandler, workflow]

/-- The word for a style. -/
def word : Style → String
  | action => "action"
  | resource => "resource"
  | stateHandler => "stateHandler"
  | workflow => "workflow"

/-- The style that a text names. -/
def ofText? (t : Text) : Option Style := all.find? fun s => Text.ofString s.word = t

end Style

/-! ## 2. Reports -/

/-- An issue with the place that it is about. -/
structure Report where
  code : Code
  site : Occurrence
  arguments : Arguments

/-- Holds of kinds that are statements and no values. -/
def Kind.isNoValue (k : Kind) : Bool := k.isDefinition || k = .collector

namespace Tree

/-- Reports on a variable as the target of an assignment. -/
def variableTargetReports (site : Occurrence) (name : Text) : List Report :=
  (if name.isNumeral then [⟨.illegalNumericAssignment, site, [("var", name)]⟩] else []) ++
    (if name.hasDoubleColon then [⟨.crossScopeAssignment, site, [("name", name)]⟩] else [])

mutual

/-- Reports on a tree as the target of an assignment: targets of an array are its elements. -/
def targetReports (p : Position) : Tree → List Report
  | node (.var name) l ps => variableTargetReports ⟨p, node (.var name) l ps⟩ name
  | node .access l ps => [⟨.illegalAssignmentViaIndex, ⟨p, node .access l ps⟩, []⟩]
  | node .array _ ps => elementTargetReports p 0 ps
  | _ => []

/-- Reports on the elements, from number `i` on, of a target at `p`. -/
def elementTargetReports (p : Position) (i : Nat) : List Tree → List Report
  | [] => []
  | t :: ts => targetReports (p ++ [i]) t ++ elementTargetReports p (i + 1) ts

end

mutual

/-- Reports on a tree as a value: the value of a unary expression is that of its operand. -/
def valueReports (p : Position) : Tree → List Report
  | node h l ps =>
    if h.kind.isUnary then operandReports p ps
    else if h.kind.isNoValue then
      [⟨.notRvalue, ⟨p, node h l ps⟩, [("value", (node h l ps).aAnCapitalized)]⟩]
    else []
  | foreign _ => []

/-- Reports on the operand of a unary expression at `p`. -/
def operandReports (p : Position) : List Tree → List Report
  | [] => []
  | t :: _ => valueReports (p ++ [0]) t

end

end Tree

namespace Occurrence

/-- Reports on an occurrence as a value. -/
def valueReports (o : Occurrence) : List Report := o.tree.valueReports o.position

/-- Reports on an occurrence as the target of an assignment. -/
def targetReports (o : Occurrence) : List Report := o.tree.targetReports o.position

end Occurrence

/-- The first idem statement that is not the last one, counted from `i`. -/
def deadStatement? (i : Nat) : List Tree → Option Nat
  | t :: u :: ts => if t.isIdem then some i else deadStatement? (i + 1) (u :: ts)
  | _ => none

/-- A dead statement stands before the last one. -/
theorem deadStatement?_lt {i j : Nat} {ts : List Tree} (h : deadStatement? i ts = some j) :
    j + 1 < i + ts.length := by
  induction ts generalizing i with
  | nil => simp [deadStatement?] at h
  | cons t ts ih =>
    cases ts with
    | nil => simp [deadStatement?] at h
    | cons u us =>
      simp only [deadStatement?] at h
      split at h
      · cases h; simp
      · have := ih h
        simp only [List.length_cons] at this ⊢
        omega

/-! ## 3. Rules -/

/-- The rules, each for the nodes of its table entries. -/
inductive Rule where
  | assignment
  | attr
  | splat
  | block
  | call
  | binary
  | activity
  deriving DecidableEq, Repr

namespace Rule

/-- Only `=` assigns; what it assigns to has to be assignable. -/
def assignmentReports (o : Occurrence) (operator : Text) : List Report :=
  if operator = Text.ofString "=" then (o.part 0).targetReports
  else [⟨.appendsDeletesNoLongerSupported, o, [("operator", operator)]⟩]

/-- Holds of the parents under which an attribute may be appended to. -/
def admitsAppend (parent : Option Occurrence) : Bool :=
  parent.any fun p =>
    p.tree.isA (.kind .collector) || p.tree.isA (.kind .override)

/-- A parent as a tree; the root has nothing as its parent. -/
def parentTree (parent : Option Occurrence) : Tree :=
  match parent with
  | some p => p.tree
  | none => Tree.absent

/-- `+>` appends only in collectors and overrides. -/
def attrReports (parent : Option Occurrence) (o : Occurrence) (name operator : Text) :
    List Report :=
  if operator = Text.ofString "+>" && !admitsAppend parent then
    [⟨.illegalAttributeAppend, o,
      [("attr", name), ("expression", (parentTree parent).aAn)]⟩]
  else []

/-- Holds of the trees that no splat may stand in. -/
def refusesSplat (t : Tree) : Bool :=
  t.isA .resource || t.isA (.kind .collector) || t.isA (.kind .capabilityMapping)

/-- A splat may not stand in a resource, a collector or a capability mapping, and what it spreads
is a value. -/
def splatReports (parent : Option Occurrence) (o : Occurrence) : List Report :=
  (match parent with
    | some p =>
      if refusesSplat p.tree then
        [⟨.unsupportedOperatorInContext, p,
          [("operator", Text.ofString "* =>"), ("value", p.tree.aAn)]⟩]
      else []
    | none => []) ++
    (o.part 0).valueReports

/-- A statement before the last one has to have an effect; the first that has none is reported. -/
def blockReports (o : Occurrence) : List Report :=
  match deadStatement? 0 o.tree.parts with
  | some i =>
    [⟨.idemExpressionNotLast, o.part i, [("expression", (o.part i).tree.label)]⟩]
  | none => []

/-- Holds of the trees that can be called: names, type names, and type names with parameters. -/
def isCallable (t : Tree) : Bool :=
  t.isA (.kind .name) || t.isA (.kind .reference) ||
    (t.isA (.kind .access) && (t.part 0).isA (.kind .reference))

/-- The functor of a call has to be callable. -/
def callReports (o : Occurrence) : List Report :=
  let functor := o.part 0
  if isCallable functor.tree then []
  else
    [⟨.illegalExpression, functor,
      [("expression", functor.tree.aAn), ("feature", Text.ofString "function name"),
        ("container", o.tree.aAn)]⟩]

/-- Both operands have to be values. -/
def binaryReports (o : Occurrence) : List Report :=
  (o.part 0).valueReports ++ (o.part 1).valueReports

/-- The style of an activity has to be known. -/
def activityReports (o : Occurrence) (style : Text) : List Report :=
  if (Style.ofText? style).isSome then []
  else [⟨.invalidActivityStyle, o, [("style", style)]⟩]

/-- What a rule reports on a node under a parent. -/
def reports (r : Rule) (parent : Option Occurrence) (o : Occurrence) : List Report :=
  match r, o.tree.head? with
  | assignment, some (.assignment operator) => assignmentReports o operator
  | attr, some (.attr name operator) => attrReports parent o name operator
  | splat, some _ => splatReports parent o
  | block, some _ => blockReports o
  | call, some _ => callReports o
  | binary, some _ => binaryReports o
  | activity, some (.activity style _) => activityReports o style
  | _, _ => []

end Rule

end ManifestLint
