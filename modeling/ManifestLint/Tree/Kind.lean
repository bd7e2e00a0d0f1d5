/-
ManifestLint.Tree.Kind — the kinds of node that a manifest tree is made of.

Each kind has the name that answers and logs give it, the noun that messages
call it by, and the groups it belongs to. A group is one kind together with its
special forms, or a capability that several kinds share: rules and dispatch
tables are written in terms of groups. Only `unlessStatement` is a special form,
of `ifStatement`.

The main statement: every kind is listed once in `Kind.all` (`mem_all`).
-/

namespace ManifestLint

/-- The kinds of node. -/
inductive Kind where
  | string | integer | float | boolean | undef | defaultValue | array | entry | hash | name
  | reference | var | access | block | negation | minus | parenthesized | assignment
  | arithmetic | comparison | patternMatch | membership | conjunction | disjunction
  | relationship | call | parameter | function | hostClass | resourceType | typeAlias | attr
  | splat | body | resource | defaults | override | virtualQuery | exportedQuery | collector
  | capabilityMapping | caseOption | caseStatement | ifStatement | unlessStatement | render
  | renderText | activity
  deriving DecidableEq, Repr

namespace Kind

/-- Every kind, in the order of the declaration. -/
def all : List Kind := [
  .string, .integer, .float, .boolean, .undef, .defaultValue, .array, .entry, .hash, .name,
  .reference, .var, .access, .block, .negation, .minus, .parenthesized, .assignment,
  .arithmetic, .comparison, .patternMatch, .membership, .conjunction, .disjunction, .relationship,
  .call, .parameter, .function, .hostClass, .resourceType, .typeAlias, .attr, .splat, .body,
  .resource, .defaults, .override, .virtualQuery, .exportedQuery, .collector, .capabilityMapping,
  .caseOption, .caseStatement, .ifStatement, .unlessStatement, .render, .renderText, .activity]

theorem mem_all (k : Kind) : k ∈ all := by
  cases k <;> decide

/-- What can be decided of each kind can be decided of all of them. -/
instance decidableForall {P : Kind → Prop} [DecidablePred P] : Decidable (∀ k, P k) :=
  decidable_of_decidable_of_iff (p := ∀ k ∈ all, P k)
    ⟨fun h k => h k (mem_all k), fun h k _ => h k⟩

/-- The name of a kind in answers and logs. -/
def className : Kind → String
  | .string => "LiteralString"
  | .integer => "LiteralInteger"
  | .float => "LiteralFloat"
  | .boolean => "LiteralBoolean"
  | .undef => "LiteralUndef"
  | .defaultValue => "LiteralDefault"
  | .array => "LiteralList"
  | .entry => "KeyedEntry"
  | .hash => "LiteralHash"
  | .name => "QualifiedName"
  | .reference => "QualifiedReference"
  | .var => "VariableExpression"
  | .access => "AccessExpression"
  | .block => "BlockExpression"
  | .negation => "NotExpression"
  | .minus => "UnaryMinusExpression"
  | .parenthesized => "ParenthesizedExpression"
  | .assignment => "AssignmentExpression"
  | .arithmetic => "ArithmeticExpression"
  | .comparison => "ComparisonExpression"
  | .patternMatch => "MatchExpression"
  | .membership => "InExpression"
  | .conjunction => "AndExpression"
  | .disjunction => "OrExpression"
  | .relationship => "RelationshipExpression"
  | .call => "CallNamedFunctionExpression"
  | .parameter => "Parameter"
  | .function => "FunctionDefinition"
  | .hostClass => "HostClassDefinition"
  | .resourceType => "ResourceTypeDefinition"
  | .typeAlias => "TypeAlias"
  | .attr => "AttributeOperation"
  | .splat => "AttributesOperation"
  | .body => "ResourceBody"
  | .resource => "ResourceExpression"
  | .defaults => "ResourceDefaultsExpression"
  | .override => "ResourceOverrideExpression"
  | .virtualQuery => "VirtualQuery"
  | .exportedQuery => "ExportedQuery"
  | .collector => "CollectExpression"
  | .capabilityMapping => "CapabilityMapping"
  | .caseOption => "CaseOption"
  | .caseStatement => "CaseExpression"
  | .ifStatement => "IfExpression"
  | .unlessStatement => "UnlessExpression"
  | .render => "RenderExpression"
  | .renderText => "RenderStringExpression"
  | .activity => "ActivityExpression"

/-- What a message calls a node of this kind. A node with an operator is called by the operator
instead. -/
def noun : Kind → String
  | .string => "literal string"
  | .integer => "literal integer"
  | .float => "literal float"
  | .boolean => "boolean"
  | .undef => "undef value"
  | .defaultValue => "'default' expression"
  | .array => "array expression"
  | .entry => "hash entry"
  | .hash => "hash expression"
  | .name => "name"
  | .reference => "type name"
  | .var => "variable"
  | .access => "'[]' expression"
  | .block => "block expression"
  | .negation => "'!' expression"
  | .minus => "unary minus expression"
  | .parenthesized => "parenthesized expression"
  | .membership => "'in' expression"
  | .conjunction => "'and' expression"
  | .disjunction => "'or' expression"
  | .call => "function call"
  | .parameter => "parameter"
  | .function => "function definition"
  | .hostClass => "host class definition"
  | .resourceType => "resource type definition"
  | .typeAlias => "type alias"
  | .attr => "attribute operation"
  | .splat => "attributes operation"
  | .body => "resource body"
  | .resource => "resource expression"
  | .defaults => "resource defaults expression"
  | .override => "resource override"
  | .virtualQuery => "virtual query"
  | .exportedQuery => "exported query"
  | .collector => "collect expression"
  | .capabilityMapping => "capability mapping"
  | .caseOption => "case option"
  | .caseStatement => "'case' statement"
  | .ifStatement => "'if' statement"
  | .unlessStatement => "'unless' statement"
  | .render => "epp render expression"
  | .renderText => "epp text"
  | .activity => "activity"
  | .assignment | .arithmetic | .comparison | .patternMatch | .relationship => "expression"

/-- The kind with the given name in answers. -/
def ofClassName? (name : String) : Option Kind := all.find? fun k => k.className == name

/-! ## Groups -/

/-- Kinds whose label quotes their operator. -/
def hasOperator : Kind → Bool
  | .assignment | .arithmetic | .comparison | .patternMatch | .relationship => true
  | _ => false

/-- Kinds with a left and a right operand. -/
def isBinary : Kind → Bool
  | .assignment | .arithmetic | .comparison | .patternMatch | .relationship
  | .membership | .conjunction | .disjunction => true
  | _ => false

/-- Kinds that wrap a single operand. -/
def isUnary : Kind → Bool
  | .negation | .minus | .parenthesized => true
  | _ => false

/-- Kinds that declare a name. -/
def isDefinition : Kind → Bool
  | .function | .hostClass | .resourceType | .typeAlias => true
  | _ => false

/-- Kinds that declare, default or override resources. -/
def isResource : Kind → Bool
  | .resource | .defaults | .override => true
  | _ => false

end Kind

/-- What a dispatch table may be keyed by: all nodes, one capability, or one kind with its special
forms. -/
inductive Group where
  | expression
  | operatorLabel
  | binary
  | unary
  | definition
  | resource
  | kind (k : Kind)
  deriving DecidableEq, Repr

namespace Group

/-- Holds of the kinds that belong to the group. -/
def has : Group → Kind → Bool
  | .expression, _ => true
  | .operatorLabel, k => k.hasOperator
  | .binary, k => k.isBinary
  | .unary, k => k.isUnary
  | .definition, k => k.isDefinition
  | .resource, k => k.isResource
  | .kind .ifStatement, k => k = .ifStatement || k = .unlessStatement
  | .kind g, k => k = g

/-- A kind belongs to its own group. -/
theorem has_kind_self (k : Kind) : (Group.kind k).has k = true := by
  cases k <;> rfl

end Group

end ManifestLint
