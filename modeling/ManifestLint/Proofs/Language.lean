/-
ManifestLint.Proofs.Language — PN as a language of values.

The grammar leaves open which symbols start forms and what may follow them. That is said
here symbol by symbol, without the table of signatures (`Production`): how many arguments
there are, which of them are strings, and where a list or a form of one symbol has to
stand. A value is well formed when it is an expression and every form, string and number
in it is sound (`Value.WellFormed`).

The main statements: values can be reasoned about from the inside out
(`nested_induction`), and the productions are the signatures of the table, argument by
argument (`production_iff`).
-/
import ManifestLint.Proofs.FormParts

namespace ManifestLint.PN

/-! ## 1. Values inside values -/

mutual

/-- The values inside a value, at every depth. -/
def Value.inner : Value → List Value
  | .string .. | .number .. | .constant .. => []
  | .form _ _ arguments => innerOfAll arguments
  | .list _ items => innerOfAll items

/-- Values with the values inside them. -/
def innerOfAll : List Value → List Value
  | [] => []
  | v :: vs => v :: (v.inner ++ innerOfAll vs)

end

/-- A value and the values inside it. -/
def Value.subvalues (v : Value) : List Value := v :: v.inner

theorem mem_innerOfAll_iff {u : Value} {vs : List Value} :
    u ∈ innerOfAll vs ↔ ∃ v ∈ vs, u ∈ v.subvalues := by
  induction vs with
  | nil => simp [innerOfAll]
  | cons v vs ih => simp [innerOfAll, Value.subvalues, ih, or_assoc]

/-- What is inside an argument is inside the form. -/
theorem mem_inner_form {p : Point} {word : List Char} {vs : List Value} {u v : Value} (hv : v ∈ vs)
    (hu : u ∈ v.subvalues) : u ∈ (Value.form p word vs).inner := by
  rw [Value.inner, mem_innerOfAll_iff]
  exact ⟨v, hv, hu⟩

theorem mem_inner_list {p : Point} {vs : List Value} {u v : Value} (hv : v ∈ vs)
    (hu : u ∈ v.subvalues) : u ∈ (Value.list p vs).inner := by
  rw [Value.inner, mem_innerOfAll_iff]
  exact ⟨v, hv, hu⟩

theorem self_mem_subvalues (v : Value) : v ∈ v.subvalues := List.mem_cons_self

section Induction

variable {P : Value → Prop}

mutual

theorem forall_inner (step : ∀ v : Value, (∀ u ∈ v.inner, P u) → P v) :
    ∀ v : Value, ∀ u ∈ v.inner, P u
  | .string .. | .number .. | .constant .. => by simp [Value.inner]
  | .form _ _ arguments => by
    rw [Value.inner]
    exact forall_innerOfAll step arguments
  | .list _ items => by
    rw [Value.inner]
    exact forall_innerOfAll step items

theorem forall_innerOfAll (step : ∀ v : Value, (∀ u ∈ v.inner, P u) → P v) :
    ∀ vs : List Value, ∀ u ∈ innerOfAll vs, P u
  | [] => by simp [innerOfAll]
  | v :: vs => by
    have hv := forall_inner step v
    have hvs := forall_innerOfAll step vs
    simp only [innerOfAll, List.forall_mem_cons, List.forall_mem_append]
    exact ⟨step v hv, hv, hvs⟩

end

/-- What holds of a value as soon as it holds of all values inside it holds of every value. -/
theorem nested_induction (step : ∀ v : Value, (∀ u ∈ v.inner, P u) → P v) (v : Value) : P v :=
  step v (forall_inner step v)

end Induction

/-! ## 2. Productions -/

namespace Value

/-- Lists are no expressions. -/
def IsExpression (v : Value) : Prop := ∀ p items, v ≠ .list p items

/-- Strings whose escapes all mean something. -/
def IsText (v : Value) : Prop := ∃ t, v.Says t

/-- Forms that start with a symbol. -/
def IsForm (word : String) (v : Value) : Prop :=
  ∃ p arguments, v = .form p word.toList arguments

/-- Lists of values of one sort. -/
def IsListOf (P : Value → Prop) (v : Value) : Prop :=
  ∃ p items, v = .list p items ∧ ∀ u ∈ items, P u

end Value

open Value in
/-- What may follow a symbol. -/
inductive Production : String → List Value → Prop where
  | row {word : String} {vs : List Value} (hword : word ∈ ["block", "array"])
      (hvs : ∀ v ∈ vs, IsExpression v) : Production word vs
  | hash {vs : List Value} (hvs : ∀ v ∈ vs, IsForm "entry" v) : Production "hash" vs
  | pair {word : String} {a b : Value} (hword : word ∈ ["entry", "in", "and", "or"])
      (ha : a.IsExpression) (hb : b.IsExpression) : Production word [a, b]
  | text {word : String} {t : Value} (hword : word ∈ ["var", "qn", "qr", "render-string"])
      (ht : t.IsText) : Production word [t]
  | default : Production "default" []
  | operations {word : String} {a : Value} {vs : List Value}
      (hword : word ∈ ["access", "call", "body", "defaults", "override"]) (ha : a.IsExpression)
      (hvs : ∀ v ∈ vs, IsExpression v) : Production word (a :: vs)
  | operator {word : String} {operator a b : Value}
      (hword : word ∈ ["assign", "arith", "compare", "match", "relationship"])
      (hoperator : operator.IsText) (ha : a.IsExpression) (hb : b.IsExpression) :
      Production word [operator, a, b]
  | unary {word : String} {a : Value} (hword : word ∈ ["not", "neg", "paren", "splat", "render"])
      (ha : a.IsExpression) : Production word [a]
  | parameter {name : Value} {value : Option Value} (hname : name.IsText)
      (hvalue : ∀ v ∈ value, IsExpression v) : Production "param" (name :: value.toList)
  | definition {word : String} {name parameters : Value} {body : Option Value}
      (hword : word ∈ ["function", "class", "define"]) (hname : name.IsText)
      (hparameters : parameters.IsListOf (IsForm "param")) (hbody : ∀ v ∈ body, IsExpression v) :
      Production word (name :: parameters :: body.toList)
  | typeAlias {name a : Value} (hname : name.IsText) (ha : a.IsExpression) :
      Production "type-alias" [name, a]
  | resource {a : Value} {vs : List Value} (ha : a.IsExpression) (hvs : ∀ v ∈ vs, IsForm "body" v) :
      Production "resource" (a :: vs)
  | collector {a query : Value} {vs : List Value} (ha : a.IsExpression)
      (hquery : query.IsExpression) (hvs : ∀ v ∈ vs, IsExpression v) :
      Production "collect" (a :: query :: vs)
  | query {word : String} {a : Option Value} (hword : word ∈ ["virtual-query", "exported-query"])
      (ha : ∀ v ∈ a, IsExpression v) : Production word a.toList
  | mapping {kind a b : Value} {vs : List Value}
      (hkind : kind.Says (Text.ofString "produces") ∨ kind.Says (Text.ofString "consumes"))
      (ha : a.IsExpression) (hb : b.IsExpression) (hvs : ∀ v ∈ vs, IsExpression v) :
      Production "capability-mapping" (kind :: a :: b :: vs)
  | attr {name operator a : Value} (hname : name.IsText)
      (hoperator : operator.Says (Text.ofString "=>") ∨ operator.Says (Text.ofString "+>"))
      (ha : a.IsExpression) : Production "attr" [name, operator, a]
  | caseStatement {a : Value} {vs : List Value} (ha : a.IsExpression)
      (hvs : ∀ v ∈ vs, IsForm "when" v) : Production "case" (a :: vs)
  | option {values a : Value} (hvalues : values.IsListOf IsExpression) (ha : a.IsExpression) :
      Production "when" [values, a]
  | conditional {word : String} {test a : Value} {b : Option Value}
      (hword : word ∈ ["if", "unless"]) (htest : test.IsExpression) (ha : a.IsExpression)
      (hb : ∀ v ∈ b, IsExpression v) : Production word (test :: a :: b.toList)
  | activity {style name : Value} {properties definition : Option Value} (hstyle : style.IsText)
      (hname : name.IsText) (hproperties : ∀ v ∈ properties, IsForm "hash" v)
      (hdefinition : ∀ v ∈ definition, IsExpression v) :
      Production "activity" (style :: name :: (properties.toList ++ definition.toList))

/-- A value is sound by itself: a string has only escapes that mean something, an integer is not
too long, and a form follows a production of its symbol. -/
def Value.Sound : Value → Prop
  | .string _ token => (StringLiteral.decode (StringLiteral.content token)).isSome = true
  | .number _ token => Numeral.isFloat token = true ∨
      (Numeral.unsigned token).length ≤ Numeral.digitLimit
  | .form _ word arguments => ∃ w : String, w.toList = word ∧ Production w arguments
  | .constant .. | .list .. => True

/-- An expression that is sound at every depth. -/
def Value.WellFormed (v : Value) : Prop := v.IsExpression ∧ ∀ u ∈ v.subvalues, u.Sound

/-! ## 3. Kinds of values -/

/-- The kind of node that a value is read as, if it is read at all. -/
def Value.kind? : Value → Option Kind
  | .string .. => some .string
  | .number _ token => some (if Numeral.isFloat token then .float else .integer)
  | .constant _ word => some word.head.kind
  | .form _ word _ => kindOfWord? word
  | .list .. => none

/-- A tree has the kind of the value that denotes it. -/
theorem kind?_of_tree {v : Value} {t : Tree} (h : v.tree = .ok t) :
    t.isNode = true ∧ t.kind? = v.kind? := by
  cases v with
  | string p token =>
    obtain ⟨x, -, rfl⟩ := tree_string_eq_ok_iff.mp h
    exact ⟨rfl, rfl⟩
  | number p token =>
    rcases tree_number_eq_ok_iff.mp h with ⟨hf, rfl⟩ | ⟨hf, n, -, rfl⟩
    · exact ⟨rfl, by simp [Value.kind?, hf, literal, Tree.kind?, Head.kind]⟩
    · exact ⟨rfl, by simp [Value.kind?, hf, literal, Tree.kind?, Head.kind]⟩
  | constant p word =>
    obtain rfl := tree_constant_eq_ok_iff.mp h
    exact ⟨rfl, rfl⟩
  | form p word arguments =>
    obtain ⟨head, f, _, _, _, _, hf, hword, -, -, rfl⟩ := tree_form_eq_ok_iff.mp h
    rw [Value.kind?, (kindOfWord?_eq_some_iff word head.kind).mpr ⟨f, hf, hword⟩]
    exact ⟨rfl, rfl⟩
  | list p items => exact absurd h tree_list_ne_ok

/-- What denotes a tree is no list. -/
theorem isExpression_of_tree {v : Value} {t : Tree} (h : v.tree = .ok t) : v.IsExpression := by
  rintro p items rfl
  exact tree_list_ne_ok h

/-- Forms of a symbol are the values that are read as nodes of its kind. -/
theorem kind?_eq_some_iff {v : Value} {k : Kind} {f : Form} (hf : Form.ofKind? k = some f) :
    v.kind? = some k ↔ v.IsForm f.word := by
  constructor
  · intro h
    cases v with
    | form p word arguments =>
      obtain ⟨f', hf', rfl⟩ := (kindOfWord?_eq_some_iff word k).mp h
      obtain rfl : f' = f := Option.some.inj (hf'.symm.trans hf)
      exact ⟨p, arguments, rfl⟩
    | string =>
      cases h
      cases hf
    | number p token =>
      cases h
      split at hf <;> cases hf
    | constant p word =>
      cases h
      cases word <;> cases hf
    | list => cases h
  · intro h
    obtain ⟨p, arguments, rfl⟩ := h
    exact (kindOfWord?_eq_some_iff _ k).mpr ⟨f, hf, rfl⟩

/-! ## 4. Signatures as productions -/

/-- Holds of the values that an argument may be, but for what is inside them. -/
def TextArgument.Fits (a : TextArgument) (v : Value) : Prop := ∃ t, a.Reads v t

/-- Holds of the values that are wanted, but for what is inside them. -/
def Wanted.Fits : Wanted → Value → Prop
  | .any, v => v.IsExpression
  | .only _ kind, v => v.kind? = some kind

/-- Two expressions after the texts of an activity start with a hash. -/
def Rest.Ordered : Rest → List Value → Prop
  | hashAndPerhaps, [a, _] => a.kind? = some .hash
  | _, _ => True

/-- The arguments are those that a signature asks for, but for what is inside them. -/
def Form.Shaped (f : Form) (vs : List Value) : Prop :=
  ∃ tv lv fv mv, vs = tv ++ lv ++ fv ++ mv ∧ List.Forall₂ TextArgument.Fits f.texts tv ∧
    List.Forall₂ (fun (a : ListArgument) v => v.IsListOf a.item.Fits) f.list.toList lv ∧
    fv.length = f.expressions ∧ (∀ v ∈ fv, v.IsExpression) ∧
    f.rest.Room mv.length ∧ (∀ v ∈ mv, f.rest.wanted.Fits v) ∧ f.rest.Ordered mv

section Peel

variable {word : String} {o : Order} {r : Rest} {n : Nat} {l : Option ListArgument}
  {vs : List Value}

/-- The first text comes first. -/
theorem shaped_text_iff {a : TextArgument} {as : List TextArgument} :
    (⟨word, a :: as, l, n, r, o⟩ : Form).Shaped vs ↔
      ∃ v us, vs = v :: us ∧ a.Fits v ∧ (⟨word, as, l, n, r, o⟩ : Form).Shaped us := by
  constructor
  · intro h
    obtain ⟨tv, lv, fv, mv, rfl, htexts, others⟩ := h
    cases htexts with
    | cons hv htexts => exact ⟨_, _, rfl, hv, _, lv, fv, mv, rfl, htexts, others⟩
  · intro h
    obtain ⟨v, _, rfl, hv, tv, lv, fv, mv, rfl, htexts, others⟩ := h
    exact ⟨v :: tv, lv, fv, mv, rfl, .cons hv htexts, others⟩

/-- After the texts comes the list. -/
theorem shaped_list_iff {a : ListArgument} :
    (⟨word, [], some a, n, r, o⟩ : Form).Shaped vs ↔
      ∃ v us, vs = v :: us ∧ v.IsListOf a.item.Fits ∧
        (⟨word, [], none, n, r, o⟩ : Form).Shaped us := by
  constructor
  · intro h
    obtain ⟨_, lv, fv, mv, rfl, htexts, hlist, others⟩ := h
    cases htexts
    cases hlist with
    | cons hv hlist => exact ⟨_, _, rfl, hv, [], _, fv, mv, rfl, .nil, hlist, others⟩
  · intro h
    obtain ⟨v, _, rfl, hv, _, lv, fv, mv, rfl, htexts, hlist, others⟩ := h
    cases htexts
    exact ⟨[], v :: lv, fv, mv, rfl, .nil, .cons hv hlist, others⟩

/-- After the list come the expressions. -/
theorem shaped_expression_iff :
    (⟨word, [], none, n + 1, r, o⟩ : Form).Shaped vs ↔
      ∃ v us, vs = v :: us ∧ v.IsExpression ∧ (⟨word, [], none, n, r, o⟩ : Form).Shaped us := by
  constructor
  · intro h
    obtain ⟨_, _, fv, mv, rfl, htexts, hlist, hcount, hfirst, others⟩ := h
    cases htexts
    cases hlist
    match fv, hcount with
    | v :: fv, hcount =>
      obtain ⟨hv, hfirst⟩ := List.forall_mem_cons.mp hfirst
      exact ⟨v, _, rfl, hv, [], [], fv, mv, rfl, .nil, .nil, Nat.succ.inj hcount, hfirst, others⟩
  · intro h
    obtain ⟨v, _, rfl, hv, _, _, fv, mv, rfl, htexts, hlist, hcount, hfirst, others⟩ := h
    cases htexts
    cases hlist
    exact ⟨[], [], v :: fv, mv, rfl, .nil, .nil, congrArg (· + 1) hcount,
      List.forall_mem_cons.mpr ⟨hv, hfirst⟩, others⟩

/-- After the expressions comes the rest. -/
theorem shaped_rest_iff :
    (⟨word, [], none, 0, r, o⟩ : Form).Shaped vs ↔
      r.Room vs.length ∧ (∀ v ∈ vs, r.wanted.Fits v) ∧ r.Ordered vs := by
  constructor
  · intro h
    obtain ⟨_, _, fv, mv, rfl, htexts, hlist, hcount, -, others⟩ := h
    cases htexts
    cases hlist
    obtain rfl := List.eq_nil_of_length_eq_zero hcount
    exact others
  · intro h
    exact ⟨[], [], [], vs, rfl, .nil, .nil, rfl, by simp, h⟩

/-- Nothing more. -/
theorem shaped_nothing_iff :
    (⟨word, [], none, 0, .nothing, o⟩ : Form).Shaped vs ↔ vs = [] := by
  rw [shaped_rest_iff]
  constructor
  · intro h
    exact List.eq_nil_of_length_eq_zero h.1
  · rintro rfl
    simp [Rest.Room, Rest.Ordered]

/-- One more expression or none. -/
theorem shaped_perhaps_iff :
    (⟨word, [], none, 0, .perhaps, o⟩ : Form).Shaped vs ↔
      ∃ a : Option Value, vs = a.toList ∧ ∀ v ∈ a, v.IsExpression := by
  rw [shaped_rest_iff]
  simp only [Rest.Room, Rest.Ordered, Rest.wanted, Wanted.Fits, and_true]
  constructor
  · intro h
    obtain ⟨hroom, hvs⟩ := h
    rcases vs with _ | ⟨v, _ | ⟨u, vs⟩⟩
    · exact ⟨none, rfl, by simp⟩
    · exact ⟨some v, rfl, by simpa using hvs⟩
    · simp at hroom
  · intro h
    obtain ⟨a, rfl, ha⟩ := h
    cases a with
    | none => simp
    | some v => simpa using ha

/-- Any number of values of one sort. -/
theorem shaped_many_iff {item : Wanted} :
    (⟨word, [], none, 0, .many item, o⟩ : Form).Shaped vs ↔ ∀ v ∈ vs, item.Fits v := by
  rw [shaped_rest_iff]
  simp [Rest.Room, Rest.Ordered, Rest.wanted]

/-- A hash or none, and one more expression or none. -/
theorem shaped_hashAndPerhaps_iff :
    (⟨word, [], none, 0, .hashAndPerhaps, o⟩ : Form).Shaped vs ↔
      ∃ a b : Option Value, vs = a.toList ++ b.toList ∧ (∀ v ∈ a, v.IsForm "hash") ∧
        ∀ v ∈ b, v.IsExpression := by
  have hhash : ∀ v : Value, v.kind? = some .hash ↔ v.IsForm "hash" := by
    intro v
    exact @kind?_eq_some_iff v .hash _ rfl
  have hform : ∀ v : Value, v.IsForm "hash" → v.IsExpression := by
    rintro v ⟨p, arguments, rfl⟩ q items h
    cases h
  rw [shaped_rest_iff]
  simp only [Rest.Room, Rest.wanted, Wanted.Fits]
  constructor
  · intro h
    obtain ⟨hroom, hvs, hordered⟩ := h
    rcases vs with _ | ⟨v, _ | ⟨u, _ | ⟨w, vs⟩⟩⟩
    · exact ⟨none, none, rfl, by simp, by simp⟩
    · exact ⟨none, some v, rfl, by simp, by simpa using hvs⟩
    · exact ⟨some v, some u, rfl, by simpa using (hhash v).mp hordered,
        by simpa using hvs u (by simp)⟩
    · simp at hroom
  · intro h
    obtain ⟨a, b, rfl, ha, hb⟩ := h
    cases a with
    | none => cases b <;> simp_all [Rest.Ordered]
    | some v =>
      have hv := ha v rfl
      cases b <;> simp_all [Rest.Ordered]

end Peel

/-! ## 5. The table as productions -/

theorem fits_anyText_iff {what : String} {v : Value} : (anyText what).Fits v ↔ v.IsText := by
  simp only [TextArgument.Fits, TextArgument.Reads, allows_anyText, and_true, Value.IsText]

theorem fits_pair_iff {what a b : String} {v : Value} :
    (⟨what, [a, b]⟩ : TextArgument).Fits v ↔
      v.Says (Text.ofString a) ∨ v.Says (Text.ofString b) := by
  simp only [TextArgument.Fits, TextArgument.Reads, allows_pair_iff, and_or_left, exists_or,
    exists_eq_right]

theorem fits_only_iff {k : Kind} {f : Form} (hf : Form.ofKind? k = some f) {what : String}
    {v : Value} : (Wanted.only what k).Fits v ↔ v.IsForm f.word := kind?_eq_some_iff hf

section Families

variable {word what : String} {vs : List Value}

theorem shaped_binaryForm_iff : (binaryForm word).Shaped vs ↔
    ∃ a b, vs = [a, b] ∧ a.IsExpression ∧ b.IsExpression := by
  simp only [binaryForm, shaped_expression_iff, shaped_nothing_iff]
  constructor
  · intro h
    obtain ⟨a, _, rfl, ha, b, _, rfl, hb, rfl⟩ := h
    exact ⟨a, b, rfl, ha, hb⟩
  · intro h
    obtain ⟨a, b, rfl, ha, hb⟩ := h
    exact ⟨a, _, rfl, ha, b, _, rfl, hb, rfl⟩

theorem shaped_textForm_iff : (textForm word what).Shaped vs ↔ ∃ t, vs = [t] ∧ t.IsText := by
  simp only [textForm, shaped_text_iff, fits_anyText_iff, shaped_nothing_iff]
  constructor
  · intro h
    obtain ⟨t, _, rfl, ht, rfl⟩ := h
    exact ⟨t, rfl, ht⟩
  · intro h
    obtain ⟨t, rfl, ht⟩ := h
    exact ⟨t, _, rfl, ht, rfl⟩

theorem shaped_operationsForm_iff : (operationsForm word).Shaped vs ↔
    ∃ a us, vs = a :: us ∧ a.IsExpression ∧ ∀ v ∈ us, v.IsExpression := by
  simp only [operationsForm, shaped_expression_iff, shaped_many_iff, Wanted.Fits]

theorem shaped_operatorForm_iff : (operatorForm word).Shaped vs ↔
    ∃ t a b, vs = [t, a, b] ∧ t.IsText ∧ a.IsExpression ∧ b.IsExpression := by
  simp only [operatorForm, shaped_text_iff, fits_anyText_iff, shaped_expression_iff,
    shaped_nothing_iff]
  constructor
  · intro h
    obtain ⟨t, _, rfl, ht, a, _, rfl, ha, b, _, rfl, hb, rfl⟩ := h
    exact ⟨t, a, b, rfl, ht, ha, hb⟩
  · intro h
    obtain ⟨t, a, b, rfl, ht, ha, hb⟩ := h
    exact ⟨t, _, rfl, ht, a, _, rfl, ha, b, _, rfl, hb, rfl⟩

theorem shaped_unaryForm_iff : (unaryForm word).Shaped vs ↔ ∃ a, vs = [a] ∧ a.IsExpression := by
  simp only [unaryForm, shaped_expression_iff, shaped_nothing_iff]
  constructor
  · intro h
    obtain ⟨a, _, rfl, ha, rfl⟩ := h
    exact ⟨a, rfl, ha⟩
  · intro h
    obtain ⟨a, rfl, ha⟩ := h
    exact ⟨a, _, rfl, ha, rfl⟩

theorem shaped_definitionForm_iff : (definitionForm word what).Shaped vs ↔
    ∃ (name parameters : Value) (body : Option Value), vs = name :: parameters :: body.toList ∧
      name.IsText ∧ parameters.IsListOf (Value.IsForm "param") ∧
        ∀ v ∈ body, v.IsExpression := by
  simp only [definitionForm, shaped_text_iff, fits_anyText_iff, shaped_list_iff, Value.IsListOf,
    fits_only_iff (k := .parameter) rfl, shaped_perhaps_iff]
  constructor
  · intro h
    obtain ⟨name, _, rfl, hname, parameters, _, rfl, hparameters, body, rfl, hbody⟩ := h
    exact ⟨name, parameters, body, rfl, hname, hparameters, hbody⟩
  · intro h
    obtain ⟨name, parameters, body, rfl, hname, hparameters, hbody⟩ := h
    exact ⟨name, _, rfl, hname, parameters, _, rfl, hparameters, body, rfl, hbody⟩

theorem shaped_conditionalForm_iff : (conditionalForm word).Shaped vs ↔
    ∃ (test a : Value) (b : Option Value), vs = test :: a :: b.toList ∧ test.IsExpression ∧
      a.IsExpression ∧ ∀ v ∈ b, v.IsExpression := by
  simp only [conditionalForm, shaped_expression_iff, shaped_perhaps_iff]
  constructor
  · intro h
    obtain ⟨test, _, rfl, htest, a, _, rfl, ha, b, rfl, hb⟩ := h
    exact ⟨test, a, b, rfl, htest, ha, hb⟩
  · intro h
    obtain ⟨test, a, b, rfl, htest, ha, hb⟩ := h
    exact ⟨test, _, rfl, htest, a, _, rfl, ha, b, rfl, hb⟩

end Families

/-- Arguments of a known shape follow a production. -/
theorem production_of_shaped {k : Kind} {f : Form} (hf : Form.ofKind? k = some f) {vs : List Value}
    (h : f.Shaped vs) : Production f.word vs := by
  cases k with
  | string | integer | float | boolean | undef => cases hf
  | block | array =>
    cases hf
    exact .row (by simp) (shaped_many_iff.mp h)
  | hash =>
    cases hf
    simp only [shaped_many_iff, fits_only_iff (k := .entry) rfl] at h
    exact .hash h
  | entry | membership | conjunction | disjunction =>
    cases hf
    obtain ⟨a, b, rfl, ha, hb⟩ := shaped_binaryForm_iff.mp h
    exact .pair (by simp [binaryForm]) ha hb
  | var | name | reference | renderText =>
    cases hf
    obtain ⟨t, rfl, ht⟩ := shaped_textForm_iff.mp h
    exact .text (by simp [textForm]) ht
  | defaultValue =>
    cases hf
    obtain rfl := shaped_nothing_iff.mp h
    exact .default
  | access | call | body | defaults | override =>
    cases hf
    obtain ⟨a, us, rfl, ha, hus⟩ := shaped_operationsForm_iff.mp h
    exact .operations (by simp [operationsForm]) ha hus
  | assignment | arithmetic | comparison | patternMatch | relationship =>
    cases hf
    obtain ⟨t, a, b, rfl, ht, ha, hb⟩ := shaped_operatorForm_iff.mp h
    exact .operator (by simp [operatorForm]) ht ha hb
  | negation | minus | parenthesized | splat | render =>
    cases hf
    obtain ⟨a, rfl, ha⟩ := shaped_unaryForm_iff.mp h
    exact .unary (by simp [unaryForm]) ha
  | parameter =>
    cases hf
    simp only [shaped_text_iff, fits_anyText_iff, shaped_perhaps_iff] at h
    obtain ⟨t, _, rfl, ht, a, rfl, ha⟩ := h
    exact .parameter ht ha
  | function | hostClass | resourceType =>
    cases hf
    obtain ⟨t, ps, a, rfl, ht, hps, ha⟩ := shaped_definitionForm_iff.mp h
    exact .definition (by simp [definitionForm]) ht hps ha
  | typeAlias =>
    cases hf
    simp only [shaped_text_iff, fits_anyText_iff, shaped_expression_iff, shaped_nothing_iff] at h
    obtain ⟨t, _, rfl, ht, a, _, rfl, ha, rfl⟩ := h
    exact .typeAlias ht ha
  | resource =>
    cases hf
    simp only [shaped_expression_iff, shaped_many_iff, fits_only_iff (k := .body) rfl] at h
    obtain ⟨a, us, rfl, ha, hus⟩ := h
    exact .resource ha hus
  | collector =>
    cases hf
    simp only [shaped_expression_iff, shaped_many_iff, Wanted.Fits] at h
    obtain ⟨a, _, rfl, ha, q, us, rfl, hq, hus⟩ := h
    exact .collector ha hq hus
  | virtualQuery | exportedQuery =>
    cases hf
    obtain ⟨a, rfl, ha⟩ := shaped_perhaps_iff.mp h
    exact .query (by simp) ha
  | capabilityMapping =>
    cases hf
    simp only [shaped_text_iff, fits_pair_iff, shaped_expression_iff, shaped_many_iff,
      Wanted.Fits] at h
    obtain ⟨t, _, rfl, ht, a, _, rfl, ha, b, us, rfl, hb, hus⟩ := h
    exact .mapping ht ha hb hus
  | attr =>
    cases hf
    simp only [shaped_text_iff, fits_anyText_iff, fits_pair_iff, shaped_expression_iff,
      shaped_nothing_iff] at h
    obtain ⟨t, _, rfl, ht, op, _, rfl, hop, a, _, rfl, ha, rfl⟩ := h
    exact .attr ht hop ha
  | caseStatement =>
    cases hf
    simp only [shaped_expression_iff, shaped_many_iff, fits_only_iff (k := .caseOption) rfl] at h
    obtain ⟨a, us, rfl, ha, hus⟩ := h
    exact .caseStatement ha hus
  | caseOption =>
    cases hf
    simp only [shaped_list_iff, shaped_expression_iff, shaped_nothing_iff] at h
    obtain ⟨ws, _, rfl, hws, a, _, rfl, ha, rfl⟩ := h
    exact .option hws ha
  | ifStatement | unlessStatement =>
    cases hf
    obtain ⟨a, b, c, rfl, ha, hb, hc⟩ := shaped_conditionalForm_iff.mp h
    exact .conditional (by simp [conditionalForm]) ha hb hc
  | activity =>
    cases hf
    simp only [shaped_text_iff, fits_anyText_iff, shaped_hashAndPerhaps_iff] at h
    obtain ⟨t, _, rfl, ht, u, _, rfl, hu, a, b, rfl, ha, hb⟩ := h
    exact .activity ht hu ha hb

/-- What a production allows is the shape of a signature. -/
theorem shaped_of_production {word : String} {vs : List Value} (h : Production word vs) :
    ∃ k f, Form.ofKind? k = some f ∧ f.word = word ∧ f.Shaped vs := by
  cases h with
  | row hword hvs =>
    simp only [List.mem_cons, List.not_mem_nil, or_false] at hword
    rcases hword with rfl | rfl
    · exact ⟨.block, _, rfl, rfl, shaped_many_iff.mpr hvs⟩
    · exact ⟨.array, _, rfl, rfl, shaped_many_iff.mpr hvs⟩
  | hash hvs =>
    refine ⟨.hash, _, rfl, rfl, ?_⟩
    simp only [shaped_many_iff, fits_only_iff (k := .entry) rfl]
    exact hvs
  | @pair _ a b hword ha hb =>
    have hshaped : ∀ w, (binaryForm w).Shaped [a, b] := fun _ =>
      shaped_binaryForm_iff.mpr ⟨a, b, rfl, ha, hb⟩
    simp only [List.mem_cons, List.not_mem_nil, or_false] at hword
    rcases hword with rfl | rfl | rfl | rfl
    · exact ⟨.entry, _, rfl, rfl, hshaped _⟩
    · exact ⟨.membership, _, rfl, rfl, hshaped _⟩
    · exact ⟨.conjunction, _, rfl, rfl, hshaped _⟩
    · exact ⟨.disjunction, _, rfl, rfl, hshaped _⟩
  | @text _ t hword ht =>
    have hshaped : ∀ w what, (textForm w what).Shaped [t] := fun _ _ =>
      shaped_textForm_iff.mpr ⟨t, rfl, ht⟩
    simp only [List.mem_cons, List.not_mem_nil, or_false] at hword
    rcases hword with rfl | rfl | rfl | rfl
    · exact ⟨.var, _, rfl, rfl, hshaped _ _⟩
    · exact ⟨.name, _, rfl, rfl, hshaped _ _⟩
    · exact ⟨.reference, _, rfl, rfl, hshaped _ _⟩
    · exact ⟨.renderText, _, rfl, rfl, hshaped _ _⟩
  | default => exact ⟨.defaultValue, _, rfl, rfl, shaped_nothing_iff.mpr rfl⟩
  | @operations _ a us hword ha hus =>
    have hshaped : ∀ w, (operationsForm w).Shaped (a :: us) := fun _ =>
      shaped_operationsForm_iff.mpr ⟨a, us, rfl, ha, hus⟩
    simp only [List.mem_cons, List.not_mem_nil, or_false] at hword
    rcases hword with rfl | rfl | rfl | rfl | rfl
    · exact ⟨.access, _, rfl, rfl, hshaped _⟩
    · exact ⟨.call, _, rfl, rfl, hshaped _⟩
    · exact ⟨.body, _, rfl, rfl, hshaped _⟩
    · exact ⟨.defaults, _, rfl, rfl, hshaped _⟩
    · exact ⟨.override, _, rfl, rfl, hshaped _⟩
  | @operator _ t a b hword ht ha hb =>
    have hshaped : ∀ w, (operatorForm w).Shaped [t, a, b] := fun _ =>
      shaped_operatorForm_iff.mpr ⟨t, a, b, rfl, ht, ha, hb⟩
    simp only [List.mem_cons, List.not_mem_nil, or_false] at hword
    rcases hword with rfl | rfl | rfl | rfl | rfl
    · exact ⟨.assignment, _, rfl, rfl, hshaped _⟩
    · exact ⟨.arithmetic, _, rfl, rfl, hshaped _⟩
    · exact ⟨.comparison, _, rfl, rfl, hshaped _⟩
    · exact ⟨.patternMatch, _, rfl, rfl, hshaped _⟩
    · exact ⟨.relationship, _, rfl, rfl, hshaped _⟩
  | @unary _ a hword ha =>
    have hshaped : ∀ w, (unaryForm w).Shaped [a] := fun _ =>
      shaped_unaryForm_iff.mpr ⟨a, rfl, ha⟩
    simp only [List.mem_cons, List.not_mem_nil, or_false] at hword
    rcases hword with rfl | rfl | rfl | rfl | rfl
    · exact ⟨.negation, _, rfl, rfl, hshaped _⟩
    · exact ⟨.minus, _, rfl, rfl, hshaped _⟩
    · exact ⟨.parenthesized, _, rfl, rfl, hshaped _⟩
    · exact ⟨.splat, _, rfl, rfl, hshaped _⟩
    · exact ⟨.render, _, rfl, rfl, hshaped _⟩
  | parameter hname hvalue =>
    refine ⟨.parameter, _, rfl, rfl, ?_⟩
    simp only [shaped_text_iff, fits_anyText_iff, shaped_perhaps_iff]
    exact ⟨_, _, rfl, hname, _, rfl, hvalue⟩
  | @definition _ name parameters body hword hname hparameters hbody =>
    have hshaped : ∀ w what,
        (definitionForm w what).Shaped (name :: parameters :: body.toList) := fun _ _ =>
      shaped_definitionForm_iff.mpr ⟨name, parameters, body, rfl, hname, hparameters, hbody⟩
    simp only [List.mem_cons, List.not_mem_nil, or_false] at hword
    rcases hword with rfl | rfl | rfl
    · exact ⟨.function, _, rfl, rfl, hshaped _ _⟩
    · exact ⟨.hostClass, _, rfl, rfl, hshaped _ _⟩
    · exact ⟨.resourceType, _, rfl, rfl, hshaped _ _⟩
  | typeAlias hname ha =>
    refine ⟨.typeAlias, _, rfl, rfl, ?_⟩
    simp only [shaped_text_iff, fits_anyText_iff, shaped_expression_iff, shaped_nothing_iff]
    exact ⟨_, _, rfl, hname, _, _, rfl, ha, rfl⟩
  | resource ha hvs =>
    refine ⟨.resource, _, rfl, rfl, ?_⟩
    simp only [shaped_expression_iff, shaped_many_iff, fits_only_iff (k := .body) rfl]
    exact ⟨_, _, rfl, ha, hvs⟩
  | collector ha hquery hvs =>
    refine ⟨.collector, _, rfl, rfl, ?_⟩
    simp only [shaped_expression_iff, shaped_many_iff, Wanted.Fits]
    exact ⟨_, _, rfl, ha, _, _, rfl, hquery, hvs⟩
  | query hword ha =>
    simp only [List.mem_cons, List.not_mem_nil, or_false] at hword
    rcases hword with rfl | rfl
    · exact ⟨.virtualQuery, _, rfl, rfl, shaped_perhaps_iff.mpr ⟨_, rfl, ha⟩⟩
    · exact ⟨.exportedQuery, _, rfl, rfl, shaped_perhaps_iff.mpr ⟨_, rfl, ha⟩⟩
  | mapping hkind ha hb hvs =>
    refine ⟨.capabilityMapping, _, rfl, rfl, ?_⟩
    simp only [shaped_text_iff, fits_pair_iff, shaped_expression_iff, shaped_many_iff, Wanted.Fits]
    exact ⟨_, _, rfl, hkind, _, _, rfl, ha, _, _, rfl, hb, hvs⟩
  | attr hname hoperator ha =>
    refine ⟨.attr, _, rfl, rfl, ?_⟩
    simp only [shaped_text_iff, fits_anyText_iff, fits_pair_iff, shaped_expression_iff,
      shaped_nothing_iff]
    exact ⟨_, _, rfl, hname, _, _, rfl, hoperator, _, _, rfl, ha, rfl⟩
  | caseStatement ha hvs =>
    refine ⟨.caseStatement, _, rfl, rfl, ?_⟩
    simp only [shaped_expression_iff, shaped_many_iff, fits_only_iff (k := .caseOption) rfl]
    exact ⟨_, _, rfl, ha, hvs⟩
  | option hvalues ha =>
    refine ⟨.caseOption, _, rfl, rfl, ?_⟩
    simp only [shaped_list_iff, shaped_expression_iff, shaped_nothing_iff]
    exact ⟨_, _, rfl, hvalues, _, _, rfl, ha, rfl⟩
  | @conditional _ test a b hword htest ha hb =>
    have hshaped : ∀ w, (conditionalForm w).Shaped (test :: a :: b.toList) := fun _ =>
      shaped_conditionalForm_iff.mpr ⟨test, a, b, rfl, htest, ha, hb⟩
    simp only [List.mem_cons, List.not_mem_nil, or_false] at hword
    rcases hword with rfl | rfl
    · exact ⟨.ifStatement, _, rfl, rfl, hshaped _⟩
    · exact ⟨.unlessStatement, _, rfl, rfl, hshaped _⟩
  | activity hstyle hname hproperties hdefinition =>
    refine ⟨.activity, _, rfl, rfl, ?_⟩
    simp only [shaped_text_iff, fits_anyText_iff, shaped_hashAndPerhaps_iff]
    exact ⟨_, _, rfl, hstyle, _, _, rfl, hname, _, _, rfl, hproperties, hdefinition⟩

/-- The productions are the signatures of the table. -/
theorem production_iff {word : String} {vs : List Value} :
    Production word vs ↔ ∃ k f, Form.ofKind? k = some f ∧ f.word = word ∧ f.Shaped vs := by
  constructor
  · exact shaped_of_production
  · intro h
    obtain ⟨k, f, hf, rfl, h⟩ := h
    exact production_of_shaped hf h

end ManifestLint.PN
