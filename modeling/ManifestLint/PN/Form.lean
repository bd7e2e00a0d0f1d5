/-
ManifestLint.PN.Form — the forms of PN: what each symbol takes and makes.

Every kind of node that is no literal is written as a form. Its signature says
which symbol starts it and which arguments follow: first texts (names,
operators), then perhaps one bracketed list, then expressions, then perhaps more.
Written order is the order of the parts of the node; the order in which arguments
are examined can differ (`Order`), which matters when several are wrong.

The main statements: kinds and symbols determine one another
(`kindOfWord?_eq_some_iff`), and every order examines each argument once
(`arrange_perm`).
-/
import ManifestLint.Tree.Basic

namespace ManifestLint.PN

/-! ## 1. Signatures -/

/-- A text that a form takes: what messages call it, and the texts allowed, any if none are
listed. -/
structure TextArgument where
  what : String
  allowed : List String

/-- The expressions that an argument may be: any, or only nodes of one kind, with what messages
call the argument. -/
inductive Wanted where
  | any
  | only (what : String) (kind : Kind)
  deriving DecidableEq, Repr

/-- The bracketed list that a form takes, and what its items may be. -/
structure ListArgument where
  what : String
  item : Wanted

/-- What a form takes after its expressions. -/
inductive Rest where
  /-- Nothing more. -/
  | nothing
  /-- One more expression or none. -/
  | perhaps
  /-- Any number of expressions. -/
  | many (item : Wanted)
  /-- A hash or none, and then one more expression or none. -/
  | hashAndPerhaps
  deriving DecidableEq, Repr

/-- The order in which arguments are examined. -/
inductive Order where
  /-- As they are written. -/
  | written
  /-- The second one before the first. -/
  | secondFirst
  /-- The first `count` ones after all others. -/
  | last (count : Nat)
  deriving DecidableEq, Repr

/-- The signature of a form. -/
structure Form where
  word : String
  texts : List TextArgument
  list : Option ListArgument
  expressions : Nat
  rest : Rest
  order : Order

namespace Order

/-- Arguments in the order in which they are examined. -/
def arrange {α : Type} : Order → List α → List α
  | written, xs => xs
  | secondFirst, x :: y :: xs => y :: x :: xs
  | secondFirst, xs => xs
  | last n, xs => xs.drop n ++ xs.take n

/-- Every argument is examined once. -/
theorem arrange_perm {α : Type} (o : Order) (xs : List α) : (o.arrange xs).Perm xs := by
  cases o with
  | written => exact List.Perm.refl xs
  | secondFirst =>
    match xs with
    | [] => exact List.Perm.refl _
    | [_] => exact List.Perm.refl _
    | x :: y :: xs => exact List.Perm.swap x y xs
  | last n =>
    have h : (xs.drop n ++ xs.take n).Perm (xs.take n ++ xs.drop n) := List.perm_append_comm
    rwa [List.take_append_drop] at h

end Order

namespace Form

/-- The least number of arguments: the texts, the list and the expressions. -/
def required (f : Form) : Nat := f.texts.length + f.list.toList.length + f.expressions

/-- The greatest number of arguments, if there is one. -/
def most (f : Form) : Option Nat :=
  match f.rest with
  | .nothing => some f.required
  | .perhaps => some (f.required + 1)
  | .many _ => none
  | .hashAndPerhaps => some (f.required + 2)

/-- Holds of the numbers of arguments that the form may have. -/
def takes (f : Form) (count : Nat) : Bool := f.required ≤ count && f.most.all (count ≤ ·)

end Form

/-! ## 2. The table -/

/-- Texts that may be anything. -/
def anyText (what : String) : TextArgument := ⟨what, []⟩

/-- A form of a symbol and two operands. -/
def binaryForm (word : String) : Form := ⟨word, [], none, 2, .nothing, .written⟩

/-- A form of a symbol, an operator and two operands. -/
def operatorForm (word : String) : Form := ⟨word, [anyText "operator"], none, 2, .nothing, .written⟩

/-- A form of a symbol and one operand. -/
def unaryForm (word : String) : Form := ⟨word, [], none, 1, .nothing, .written⟩

/-- A form of a symbol and one text. -/
def textForm (word what : String) : Form := ⟨word, [anyText what], none, 0, .nothing, .written⟩

/-- A form of a symbol, an expression and any number of operations. -/
def operationsForm (word : String) : Form := ⟨word, [], none, 1, .many .any, .written⟩

/-- A form of a symbol, a name, a list of parameters and perhaps a body. -/
def definitionForm (word what : String) : Form :=
  ⟨word, [anyText what], some ⟨"parameter list", .only "parameter" .parameter⟩, 0, .perhaps,
    .last 1⟩

/-- A form of a symbol, a test, a branch and perhaps a second branch, which is examined first. -/
def conditionalForm (word : String) : Form := ⟨word, [], none, 2, .perhaps, .last 2⟩

/-- The form of a kind; literals have none. -/
def Form.ofKind? : Kind → Option Form
  | .string | .integer | .float | .boolean | .undef => none
  | .block => some ⟨"block", [], none, 0, .many .any, .written⟩
  | .array => some ⟨"array", [], none, 0, .many .any, .written⟩
  | .hash => some ⟨"hash", [], none, 0, .many (.only "hash element" .entry), .written⟩
  | .entry => some (binaryForm "entry")
  | .var => some (textForm "var" "variable name")
  | .name => some (textForm "qn" "name")
  | .reference => some (textForm "qr" "type name")
  | .defaultValue => some ⟨"default", [], none, 0, .nothing, .written⟩
  | .access => some (operationsForm "access")
  | .assignment => some (operatorForm "assign")
  | .arithmetic => some (operatorForm "arith")
  | .comparison => some (operatorForm "compare")
  | .patternMatch => some (operatorForm "match")
  | .relationship => some (operatorForm "relationship")
  | .membership => some (binaryForm "in")
  | .conjunction => some (binaryForm "and")
  | .disjunction => some (binaryForm "or")
  | .negation => some (unaryForm "not")
  | .minus => some (unaryForm "neg")
  | .parenthesized => some (unaryForm "paren")
  | .call => some (operationsForm "call")
  | .parameter => some ⟨"param", [anyText "parameter name"], none, 0, .perhaps, .secondFirst⟩
  | .function => some (definitionForm "function" "function name")
  | .hostClass => some (definitionForm "class" "class name")
  | .resourceType => some (definitionForm "define" "define name")
  | .typeAlias => some ⟨"type-alias", [anyText "type alias name"], none, 1, .nothing, .written⟩
  | .resource => some ⟨"resource", [], none, 1, .many (.only "resource body" .body), .last 1⟩
  | .body => some (operationsForm "body")
  | .defaults => some (operationsForm "defaults")
  | .override => some (operationsForm "override")
  | .collector => some ⟨"collect", [], none, 2, .many .any, .written⟩
  | .virtualQuery => some ⟨"virtual-query", [], none, 0, .perhaps, .written⟩
  | .exportedQuery => some ⟨"exported-query", [], none, 0, .perhaps, .written⟩
  | .capabilityMapping =>
    some ⟨"capability-mapping", [⟨"capability mapping kind", ["produces", "consumes"]⟩], none, 2,
      .many .any, .written⟩
  | .attr =>
    some ⟨"attr", [anyText "attribute name", ⟨"attribute operator", ["=>", "+>"]⟩], none, 1,
      .nothing, .secondFirst⟩
  | .splat => some (unaryForm "splat")
  | .caseStatement => some ⟨"case", [], none, 1, .many (.only "case option" .caseOption), .last 1⟩
  | .caseOption => some ⟨"when", [], some ⟨"case option values", .any⟩, 1, .nothing, .written⟩
  | .ifStatement => some (conditionalForm "if")
  | .unlessStatement => some (conditionalForm "unless")
  | .render => some (unaryForm "render")
  | .renderText => some (textForm "render-string" "rendered text")
  | .activity =>
    some ⟨"activity", [anyText "activity style", anyText "activity name"], none, 0, .hashAndPerhaps,
      .written⟩

/-- The kind that a symbol makes, if it is known. -/
def kindOfWord? (word : List Char) : Option Kind :=
  Kind.all.find? fun k => (Form.ofKind? k).any fun f => f.word.toList == word

/-- No two kinds are written with one symbol. -/
theorem word_injective (k k' : Kind) (f f' : Form) (h : Form.ofKind? k = some f)
    (h' : Form.ofKind? k' = some f') (hw : f.word = f'.word) : k = k' := by
  have key : ∀ k ∈ Kind.all, ∀ k' ∈ Kind.all,
      ((Form.ofKind? k).map Form.word).isSome →
        (Form.ofKind? k).map Form.word = (Form.ofKind? k').map Form.word → k = k' := by
    decide +kernel
  exact key k (Kind.mem_all k) k' (Kind.mem_all k') (by simp [h]) (by simp [h, h', hw])

/-- Kinds and symbols determine one another. -/
theorem kindOfWord?_eq_some_iff (word : List Char) (k : Kind) :
    kindOfWord? word = some k ↔ ∃ f, Form.ofKind? k = some f ∧ f.word.toList = word := by
  constructor
  · intro h
    have hk := List.find?_some h
    cases hf : Form.ofKind? k with
    | none => simp [hf] at hk
    | some f => exact ⟨f, rfl, by simpa [hf] using hk⟩
  · rintro ⟨f, hf, rfl⟩
    cases h : kindOfWord? f.word.toList with
    | none =>
      have := List.find?_eq_none.mp h k (Kind.mem_all k)
      simp [hf] at this
    | some k' =>
      have hk' := List.find?_some h
      cases hf' : Form.ofKind? k' with
      | none => simp [hf'] at hk'
      | some f' =>
        have hw : f'.word.toList = f.word.toList := by simpa [hf'] using hk'
        rw [word_injective k' k f' f hf' hf (String.toList_inj.mp hw)]

end ManifestLint.PN
