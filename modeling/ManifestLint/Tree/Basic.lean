/-
ManifestLint.Tree.Basic — manifest trees.

A node is a head (its kind with the values that are no nodes), a location, and
its parts in source order. `Kind.layout` names the field that each part fills: some
single fields, then possibly a list, then some single fields. A single field
that is left out is filled by `Tree.absent`, so a node of a given kind has its
single fields at fixed places from the front or from the back.

Lists and fields may hold things that are no nodes; these are `foreign` parts.

The main statements: a head is determined by its kind and its texts
(`ofTexts?_texts`), and the parts of a node split as its layout says
(`fieldAt_front`, `fieldAt_back`).
-/
import ManifestLint.Binary64
import ManifestLint.Span
import ManifestLint.Tree.Kind

namespace ManifestLint

/-! ## Heads -/

/-- What a node is, apart from its location and its parts. -/
inductive Head where
  | string (value : Text)
  | integer (value : Int)
  | float (value : Binary64)
  | boolean (value : Bool)
  | undef
  | defaultValue
  | array
  | entry
  | hash
  | name (value : Text)
  | reference (name : Text)
  | var (name : Text)
  | access
  | block
  | negation
  | minus
  | parenthesized
  | assignment (operator : Text)
  | arithmetic (operator : Text)
  | comparison (operator : Text)
  | patternMatch (operator : Text)
  | membership
  | conjunction
  | disjunction
  | relationship (operator : Text)
  | call
  | parameter (name : Text)
  | function (name : Text)
  | hostClass (name : Text)
  | resourceType (name : Text)
  | typeAlias (name : Text)
  | attr (name operator : Text)
  | splat
  | body
  | resource
  | defaults
  | override
  | virtualQuery
  | exportedQuery
  | collector
  | capabilityMapping (kind : Text)
  | caseOption
  | caseStatement
  | ifStatement
  | unlessStatement
  | render
  | renderText (value : Text)
  | activity (style name : Text)
  deriving DecidableEq, Repr

namespace Head

/-- The kind of a head. -/
def kind : Head → Kind
  | string _ => .string
  | integer _ => .integer
  | float _ => .float
  | boolean _ => .boolean
  | undef => .undef
  | defaultValue => .defaultValue
  | array => .array
  | entry => .entry
  | hash => .hash
  | name _ => .name
  | reference _ => .reference
  | var _ => .var
  | access => .access
  | block => .block
  | negation => .negation
  | minus => .minus
  | parenthesized => .parenthesized
  | assignment _ => .assignment
  | arithmetic _ => .arithmetic
  | comparison _ => .comparison
  | patternMatch _ => .patternMatch
  | membership => .membership
  | conjunction => .conjunction
  | disjunction => .disjunction
  | relationship _ => .relationship
  | call => .call
  | parameter _ => .parameter
  | function _ => .function
  | hostClass _ => .hostClass
  | resourceType _ => .resourceType
  | typeAlias _ => .typeAlias
  | attr _ _ => .attr
  | splat => .splat
  | body => .body
  | resource => .resource
  | defaults => .defaults
  | override => .override
  | virtualQuery => .virtualQuery
  | exportedQuery => .exportedQuery
  | collector => .collector
  | capabilityMapping _ => .capabilityMapping
  | caseOption => .caseOption
  | caseStatement => .caseStatement
  | ifStatement => .ifStatement
  | unlessStatement => .unlessStatement
  | render => .render
  | renderText _ => .renderText
  | activity _ _ => .activity

/-- The names, operators and other texts of a head that is no literal, in written order. -/
def texts : Head → List Text
  | name t | reference t | var t => [t]
  | assignment t | arithmetic t | comparison t | patternMatch t | relationship t => [t]
  | parameter t | function t | hostClass t | resourceType t | typeAlias t => [t]
  | attr n op => [n, op]
  | capabilityMapping t | renderText t => [t]
  | activity s n => [s, n]
  | _ => []

/-- The head of a kind with the given texts; a literal's head is not made of texts. -/
def ofTexts? : Kind → List Text → Option Head
  | .defaultValue, [] => some defaultValue
  | .array, [] => some array
  | .entry, [] => some entry
  | .hash, [] => some hash
  | .name, [t] => some (name t)
  | .reference, [t] => some (reference t)
  | .var, [t] => some (var t)
  | .access, [] => some access
  | .block, [] => some block
  | .negation, [] => some negation
  | .minus, [] => some minus
  | .parenthesized, [] => some parenthesized
  | .assignment, [t] => some (assignment t)
  | .arithmetic, [t] => some (arithmetic t)
  | .comparison, [t] => some (comparison t)
  | .patternMatch, [t] => some (patternMatch t)
  | .membership, [] => some membership
  | .conjunction, [] => some conjunction
  | .disjunction, [] => some disjunction
  | .relationship, [t] => some (relationship t)
  | .call, [] => some call
  | .parameter, [t] => some (parameter t)
  | .function, [t] => some (function t)
  | .hostClass, [t] => some (hostClass t)
  | .resourceType, [t] => some (resourceType t)
  | .typeAlias, [t] => some (typeAlias t)
  | .attr, [n, op] => some (attr n op)
  | .splat, [] => some splat
  | .body, [] => some body
  | .resource, [] => some resource
  | .defaults, [] => some defaults
  | .override, [] => some override
  | .virtualQuery, [] => some virtualQuery
  | .exportedQuery, [] => some exportedQuery
  | .collector, [] => some collector
  | .capabilityMapping, [t] => some (capabilityMapping t)
  | .caseOption, [] => some caseOption
  | .caseStatement, [] => some caseStatement
  | .ifStatement, [] => some ifStatement
  | .unlessStatement, [] => some unlessStatement
  | .render, [] => some render
  | .renderText, [t] => some (renderText t)
  | .activity, [s, n] => some (activity s n)
  | _, _ => none

/-- Holds of the heads that stand for a written value. -/
def isLiteral : Head → Bool
  | string _ | integer _ | float _ | boolean _ | undef => true
  | _ => false

/-- A head that is no literal is made of its kind and its texts. -/
theorem ofTexts?_texts (h : Head) (hl : h.isLiteral = false) :
    ofTexts? h.kind h.texts = some h := by
  cases h <;> first | rfl | cases hl

theorem kind_of_ofTexts? {k : Kind} {ts : List Text} {h : Head} (hk : ofTexts? k ts = some h) :
    h.kind = k := by
  unfold ofTexts? at hk
  split at hk <;> first | (injection hk with hk; subst hk; rfl) | contradiction

theorem texts_of_ofTexts? {k : Kind} {ts : List Text} {h : Head} (hk : ofTexts? k ts = some h) :
    h.texts = ts := by
  unfold ofTexts? at hk
  split at hk <;> first | (injection hk with hk; subst hk; rfl) | contradiction

/-- Equality of heads, floats compared as numbers. -/
def same : Head → Head → Bool
  | float x, float y => x.numericEq y
  | a, b => a = b

/-- What a message calls a node with this head: its operator between quotes, or the noun of its
kind. -/
def label : Head → Text
  | assignment op | arithmetic op | comparison op | patternMatch op | relationship op =>
    Text.ofString "'" ++ op ++ Text.ofString "' expression"
  | h => h.kind.noun

end Head

/-! ## Layouts -/

/-- The fields that parts fill. -/
inductive Field where
  | elements | key | value | entries | operand | keys | statements | expr | lhs | rhs | functor
  | arguments | parameters | body | typeExpr | title | operations | typeName | bodies | typeRef
  | resources | query | component | capability | mappings | values | thenBranch | test | options
  | elseBranch | properties | definition
  deriving DecidableEq, Repr

/-- How the parts of a node are laid out: single fields, then perhaps a list, then single
fields. -/
structure Layout where
  front : List Field
  list : Option Field
  back : List Field

/-- The layout of a kind. -/
def Kind.layout : Kind → Layout
  | .string | .integer | .float | .boolean | .undef | .defaultValue => ⟨[], none, []⟩
  | .name | .reference | .var | .renderText => ⟨[], none, []⟩
  | .array => ⟨[], some .elements, []⟩
  | .entry => ⟨[.key, .value], none, []⟩
  | .hash => ⟨[], some .entries, []⟩
  | .access => ⟨[.operand], some .keys, []⟩
  | .block => ⟨[], some .statements, []⟩
  | .negation | .minus | .parenthesized => ⟨[.expr], none, []⟩
  | .assignment | .arithmetic | .comparison | .patternMatch | .relationship
  | .membership | .conjunction | .disjunction => ⟨[.lhs, .rhs], none, []⟩
  | .call => ⟨[.functor], some .arguments, []⟩
  | .parameter => ⟨[.value], none, []⟩
  | .function | .hostClass | .resourceType => ⟨[], some .parameters, [.body]⟩
  | .typeAlias => ⟨[.typeExpr], none, []⟩
  | .attr => ⟨[.value], none, []⟩
  | .splat | .render => ⟨[.expr], none, []⟩
  | .body => ⟨[.title], some .operations, []⟩
  | .resource => ⟨[.typeName], some .bodies, []⟩
  | .defaults => ⟨[.typeRef], some .operations, []⟩
  | .override => ⟨[.resources], some .operations, []⟩
  | .virtualQuery | .exportedQuery => ⟨[.expr], none, []⟩
  | .collector => ⟨[.typeRef, .query], some .operations, []⟩
  | .capabilityMapping => ⟨[.component, .capability], some .mappings, []⟩
  | .caseOption => ⟨[], some .values, [.thenBranch]⟩
  | .caseStatement => ⟨[.test], some .options, []⟩
  | .ifStatement | .unlessStatement => ⟨[.test, .thenBranch, .elseBranch], none, []⟩
  | .activity => ⟨[.properties, .definition], none, []⟩

/-- The field that part `i` of `count` parts fills. -/
def Layout.fieldAt (l : Layout) (count i : Nat) : Option Field :=
  if i < l.front.length then l.front[i]?
  else if count < l.back.length + i + 1 then l.back[l.back.length + i - count]?
  else l.list

theorem Layout.fieldAt_front (l : Layout) (count i : Nat) (h : i < l.front.length) :
    l.fieldAt count i = l.front[i]? := by
  simp [fieldAt, h]

theorem Layout.fieldAt_back (l : Layout) (count j : Nat)
    (hc : l.front.length + l.back.length ≤ count) :
    l.fieldAt count (count - l.back.length + j) = l.back[j]? := by
  have h1 : ¬ count - l.back.length + j < l.front.length := by omega
  have h2 : count < l.back.length + (count - l.back.length + j) + 1 := by omega
  have h3 : l.back.length + (count - l.back.length + j) - count = j := by omega
  simp only [fieldAt, h1, h2, if_true, if_false, h3]

/-! ## Trees -/

/-- What stands where a node is expected and is none. -/
inductive Foreign where
  | absent | text | integer | float | boolean | list | mapping
  deriving DecidableEq, Repr

/-- What a message calls a thing that is no node: nothing is the top level, anything else goes by
the name of its type. -/
def Foreign.label : Foreign → String
  | .absent => "top level"
  | .text => "str"
  | .integer => "int"
  | .float => "float"
  | .boolean => "bool"
  | .list => "list"
  | .mapping => "dict"

/-- A manifest tree, or a thing that stands in the place of one. -/
inductive Tree where
  | node (head : Head) (location : Location) (parts : List Tree)
  | foreign (thing : Foreign)

namespace Tree

/-- Nothing at all. -/
def absent : Tree := .foreign .absent

instance : Inhabited Tree := ⟨absent⟩

/-- Holds of nodes. -/
def isNode : Tree → Bool
  | node .. => true
  | foreign _ => false

/-- The head of a node. -/
def head? : Tree → Option Head
  | node h _ _ => some h
  | foreign _ => none

/-- The kind of a node. -/
def kind? (t : Tree) : Option Kind := t.head?.map Head.kind

/-- Holds of nodes whose kind belongs to the group. -/
def isA (t : Tree) (g : Group) : Bool := t.kind?.any g.has

/-- The location of a node; other things have none. -/
def location : Tree → Location
  | node _ l _ => l
  | foreign _ => .unknown

/-- The parts of a node, in source order. -/
def parts : Tree → List Tree
  | node _ _ ps => ps
  | foreign _ => []

/-- The parts that are nodes. -/
def children (t : Tree) : List Tree := t.parts.filter isNode

/-- Part `i` of a node; nothing where there is none. -/
def part (t : Tree) (i : Nat) : Tree := t.parts[i]?.getD absent

@[simp] theorem head?_node (h : Head) (l : Location) (ps : List Tree) :
    (node h l ps).head? = some h := rfl

@[simp] theorem parts_node (h : Head) (l : Location) (ps : List Tree) :
    (node h l ps).parts = ps := rfl

@[simp] theorem location_node (h : Head) (l : Location) (ps : List Tree) :
    (node h l ps).location = l := rfl

@[simp] theorem isNode_node (h : Head) (l : Location) (ps : List Tree) :
    (node h l ps).isNode = true := rfl

@[simp] theorem isNode_foreign (x : Foreign) : (foreign x).isNode = false := rfl

theorem isA_node (h : Head) (l : Location) (ps : List Tree) (g : Group) :
    (node h l ps).isA g = g.has h.kind := by
  simp [isA, kind?]

theorem isA_foreign (x : Foreign) (g : Group) : (foreign x).isA g = false := rfl

theorem part_of_lt (t : Tree) (i : Nat) (h : i < t.parts.length) : t.part i = t.parts[i] := by
  simp [part, h]

/-! ## Equality -/

mutual

/-- Equality of trees, locations included, floats compared as numbers. -/
def same : Tree → Tree → Bool
  | node h l ps, node h' l' ps' => h.same h' && l = l' && sameAll ps ps'
  | foreign x, foreign y => x = y
  | _, _ => false

/-- Equality of parts, one by one. -/
def sameAll : List Tree → List Tree → Bool
  | [], [] => true
  | t :: ts, u :: us => t.same u && sameAll ts us
  | _, _ => false

end

end Tree

end ManifestLint
