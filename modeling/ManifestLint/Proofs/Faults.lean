/-
ManifestLint.Proofs.Faults — the rule that a refused text breaks, and where.

What forms may hold is said here once more, symbol by symbol and place by place (`symbols`): how
many arguments there are, and whether a string, a list, an expression or the form of one symbol has
to stand in each place. A value stands where such a place is, and breaks a rule by itself
(`Breaks`): what else is wrong in the text, and in which order arguments are examined, has no say
in that.

The main statements: those places are the demands of the table (`mem_symbols_iff`,
`map_role_demands`), a refused value holds one that breaks the rule of its fault
(`brokenAt_of_tree`), and no rule is broken in a value that denotes a tree
(`not_breaks_of_wellFormed`).
-/
import ManifestLint.Proofs.ReadFailure

namespace ManifestLint.PN

/-! ## 1. Symbols and places -/

/-- What has to stand in a place: a string, a list of things, an expression, or an expression that
is the form of one symbol, with the kind that it makes. Messages call the place `what`. -/
inductive Role where
  | text (what : String)
  | list (what : String) (item : Role)
  | expression
  | node (what word : String) (kind : Kind)
  deriving DecidableEq

/-- The places of the arguments of a symbol: what stands in those that have to be filled, what
stands in all others, and how many there are at most. -/
structure Places where
  filled : List Role
  others : Role
  most : Option Nat
  deriving DecidableEq

namespace Places

/-- As many arguments as listed. -/
def exactly (roles : List Role) : Places := ⟨roles, .expression, some roles.length⟩

/-- The arguments listed, and some more expressions or none. -/
def upTo (roles : List Role) (more : Nat) : Places :=
  ⟨roles, .expression, some (roles.length + more)⟩

/-- The arguments listed, and any number of others. -/
def many (roles : List Role) (others : Role) : Places := ⟨roles, others, none⟩

/-- Holds of the numbers of arguments that there may be. -/
def Takes (s : Places) (count : Nat) : Prop := s.filled.length ≤ count ∧ ∀ n ∈ s.most, count ≤ n

/-- What stands in the places of so many arguments. -/
def roles (s : Places) (count : Nat) : List Role :=
  s.filled ++ List.replicate (count - s.filled.length) s.others

end Places

open Places Role in
/-- The symbols that start forms, with the places of their arguments. -/
def symbols : List (String × Places) := [
  ("block", many [] expression),
  ("array", many [] expression),
  ("hash", many [] (node "hash element" "entry" .entry)),
  ("entry", exactly [expression, expression]),
  ("var", exactly [text "variable name"]),
  ("qn", exactly [text "name"]),
  ("qr", exactly [text "type name"]),
  ("default", exactly []),
  ("access", many [expression] expression),
  ("assign", exactly [text "operator", expression, expression]),
  ("arith", exactly [text "operator", expression, expression]),
  ("compare", exactly [text "operator", expression, expression]),
  ("match", exactly [text "operator", expression, expression]),
  ("relationship", exactly [text "operator", expression, expression]),
  ("in", exactly [expression, expression]),
  ("and", exactly [expression, expression]),
  ("or", exactly [expression, expression]),
  ("not", exactly [expression]),
  ("neg", exactly [expression]),
  ("paren", exactly [expression]),
  ("call", many [expression] expression),
  ("param", upTo [text "parameter name"] 1),
  ("function",
    upTo [text "function name", list "parameter list" (node "parameter" "param" .parameter)] 1),
  ("class",
    upTo [text "class name", list "parameter list" (node "parameter" "param" .parameter)] 1),
  ("define",
    upTo [text "define name", list "parameter list" (node "parameter" "param" .parameter)] 1),
  ("type-alias", exactly [text "type alias name", expression]),
  ("resource", many [expression] (node "resource body" "body" .body)),
  ("body", many [expression] expression),
  ("defaults", many [expression] expression),
  ("override", many [expression] expression),
  ("collect", many [expression, expression] expression),
  ("virtual-query", upTo [] 1),
  ("exported-query", upTo [] 1),
  ("capability-mapping", many [text "capability mapping kind", expression, expression] expression),
  ("attr", exactly [text "attribute name", text "attribute operator", expression]),
  ("splat", exactly [expression]),
  ("case", many [expression] (node "case option" "when" .caseOption)),
  ("when", exactly [list "case option values" expression, expression]),
  ("if", upTo [expression, expression] 1),
  ("unless", upTo [expression, expression] 1),
  ("render", exactly [expression]),
  ("render-string", exactly [text "rendered text"]),
  ("activity", upTo [text "activity style", text "activity name"] 2)]

/-- The arguments that must be one of a few texts: the symbol, the place counted from zero, what
messages call it, and the texts. -/
def choices : List (String × Nat × String × List String) := [
  ("attr", 1, "attribute operator", ["=>", "+>"]),
  ("capability-mapping", 0, "capability mapping kind", ["produces", "consumes"])]

/-! ## 2. Rules -/

/-- The role of a value inside of a whole one: the whole value is an expression, an argument has the
role of its place, and an item that of its list's items. -/
inductive Stands (whole : Value) : Role → Value → Prop where
  | whole : Stands whole .expression whole
  | argument {p : Point} {word : String} {vs : List Value} {s : Places} {role : Role} {v : Value}
      (hform : .form p word.toList vs ∈ whole.subvalues) (hs : (word, s) ∈ symbols)
      (htakes : s.Takes vs.length) (hv : (role, v) ∈ (s.roles vs.length).zip vs) :
      Stands whole role v
  | item {p : Point} {what : String} {role : Role} {items : List Value} {v : Value}
      (hlist : Stands whole (.list what role) (.list p items)) (hv : v ∈ items) :
      Stands whole role v

/-- The roles of expressions. -/
def Role.IsExpression : Role → Prop
  | .expression | .node .. => True
  | .text _ | .list .. => False

/-- A value inside of a whole one breaks the rule of a fault. -/
inductive Breaks (whole : Value) : Value → Fault → Prop where
  | listAsExpression {p : Point} {items : List Value} {role : Role}
      (hstands : Stands whole role (.list p items)) (hrole : role.IsExpression) :
      Breaks whole (.list p items) .listAsExpression
  | unknownForm {p : Point} {word : List Char} {vs : List Value}
      (h : ∀ e ∈ symbols, e.1.toList ≠ word) :
      Breaks whole (.form p word vs) (.unknownForm word)
  | argumentCount {p : Point} {word : String} {vs : List Value} {s : Places}
      (hs : (word, s) ∈ symbols) (h : ¬ s.Takes vs.length) :
      Breaks whole (.form p word.toList vs)
        (.argumentCount word s.filled.length s.most vs.length)
  | notString {v : Value} {what : String} (hstands : Stands whole (.text what) v)
      (h : ∀ p token, v ≠ .string p token) : Breaks whole v (.notString what)
  | notList {v : Value} {what : String} {item : Role} (hstands : Stands whole (.list what item) v)
      (h : ∀ p items, v ≠ .list p items) : Breaks whole v (.notList what)
  | notOfKind {v : Value} {what word : String} {kind : Kind}
      (hstands : Stands whole (.node what word kind) v) (h : ¬ v.IsForm word) :
      Breaks whole v (.notOfKind what kind)
  | notAllowed {p : Point} {word what : String} {vs : List Value} {i : Nat} {allowed : List String}
      {v : Value} {t : Text} (hchoice : (word, i, what, allowed) ∈ choices) (hv : vs[i]? = some v)
      (hsaid : v.Says t) (h : ∀ s ∈ allowed, Text.ofString s ≠ t) :
      Breaks whole (.form p word.toList vs) (.notAllowed what allowed t)
  | activityTail {p : Point} {style name a b : Value} (h : ¬ a.IsForm "hash") :
      Breaks whole (.form p "activity".toList [style, name, a, b]) .activityTail
  | badEscape {p : Point} {token : List Char}
      (h : StringLiteral.decode (StringLiteral.content token) = none) :
      Breaks whole (.string p token) (.badEscape token)

/-! ## 3. The table -/

/-- The word of a kind's forms. -/
def Form.wordOf (k : Kind) : String := ((Form.ofKind? k).map Form.word).getD ""

/-- The role of an expression that is wanted. -/
def Wanted.role : Wanted → Role
  | .any => .expression
  | .only what kind => .node what (Form.wordOf kind) kind

/-- The role of an argument that is demanded. -/
def Demand.role : Demand → Role
  | .text a => .text a.what
  | .expression w => w.role
  | .list a => .list a.what a.item.role

/-- The places of a signature. -/
def Form.places (f : Form) : Places :=
  ⟨f.texts.map (.text ·.what) ++ f.list.toList.map (fun a => .list a.what a.item.role) ++
    List.replicate f.expressions .expression, f.rest.wanted.role, f.most⟩

/-- Holds of what is wanted unless it is a literal. -/
def Wanted.isFormed : Wanted → Bool
  | .any => true
  | .only _ kind => (Form.ofKind? kind).isSome

section Table

variable {k : Kind} {f : Form}

/-- The symbols are the words of the table, with the places of its signatures. -/
theorem mem_symbols_iff {word : String} {s : Places} :
    (word, s) ∈ symbols ↔ ∃ k f, Form.ofKind? k = some f ∧ f.word = word ∧ f.places = s := by
  constructor
  · intro h
    have key : ∀ e ∈ symbols, ∃ k ∈ Kind.all,
        (Form.ofKind? k).map (fun f => (f.word, f.places)) = some e := by decide +kernel
    obtain ⟨k, -, hk⟩ := key _ h
    obtain ⟨f, hf, heq⟩ := Option.map_eq_some_iff.mp hk
    cases heq
    exact ⟨k, f, hf, rfl, rfl⟩
  · rintro ⟨k, f, hf, rfl, rfl⟩
    have key : ∀ k, ∀ e ∈ (Form.ofKind? k).map (fun f => (f.word, f.places)), e ∈ symbols := by
      decide +kernel
    exact key k _ (by rw [hf]; rfl)

/-- The texts that have to be chosen are those of the table. -/
theorem mem_choices_iff (hf : Form.ofKind? k = some f) {i : Nat} {what : String}
    {allowed : List String} :
    (f.word, i, what, allowed) ∈ choices ↔ f.texts[i]? = some ⟨what, allowed⟩ ∧ allowed ≠ [] := by
  have key : ∀ k, (Form.ofKind? k).all (fun f => (choices.filter fun e => e.1 = f.word) =
      (f.texts.zipIdx.filter fun e => e.1.allowed ≠ []).map
        fun e => (f.word, e.2, e.1.what, e.1.allowed)) = true := by decide +kernel
  have hk := key k
  simp only [hf, Option.all_some, decide_eq_true_eq] at hk
  have hmem : (f.word, i, what, allowed) ∈ choices ↔
      (f.word, i, what, allowed) ∈ choices.filter fun e => e.1 = f.word := by
    simp [List.mem_filter]
  rw [hmem, hk, List.mem_map]
  simp only [List.mem_filter, decide_eq_true_eq, Prod.mk.injEq, true_and]
  constructor
  · rintro ⟨⟨a, j⟩, ⟨hj, hne⟩, rfl, rfl, rfl⟩
    exact ⟨List.mem_zipIdx_iff_getElem?.mp hj, hne⟩
  · rintro ⟨hi, hne⟩
    exact ⟨(_, i), ⟨List.mem_zipIdx_iff_getElem?.mpr hi, hne⟩, rfl, rfl, rfl⟩

/-- What a form of the table wants is no literal. -/
theorem isFormed_of_ofKind? (hf : Form.ofKind? k = some f) :
    f.rest.wanted.isFormed = true ∧ ∀ a ∈ f.list, a.item.isFormed = true := by
  have key : ∀ k, (Form.ofKind? k).all (fun f => f.rest.wanted.isFormed &&
      f.list.all fun a => a.item.isFormed) = true := by decide
  simpa [hf, Option.all_eq_true] using key k

theorem length_filled (f : Form) : f.places.filled.length = f.required := by
  simp [Form.places, Form.required, Nat.add_assoc]

/-- The places of so many arguments are the demands on them. -/
theorem map_role_demands (f : Form) (count : Nat) :
    (f.demands count).map Demand.role = f.places.roles count := by
  rw [Places.roles, length_filled, Form.demands_eq]
  simp only [Form.places, List.map_append, List.map_map, List.map_replicate]
  rfl

theorem takes_places_iff (f : Form) (count : Nat) :
    f.places.Takes count ↔ f.takes count = true := by
  rw [Places.Takes, length_filled]
  simp [Form.takes, Form.places, Option.all_eq_true]

/-- The texts that are demanded come first. -/
theorem text_of_getElem?_demands {count i : Nat} {a : TextArgument}
    (h : (f.demands count)[i]? = some (.text a)) : f.texts[i]? = some a := by
  rw [Form.demands_eq, List.append_assoc, List.append_assoc] at h
  rcases Nat.lt_or_ge i f.texts.length with hi | hi
  · rw [List.getElem?_append_left (by simpa using hi), List.getElem?_map] at h
    obtain ⟨b, hb, heq⟩ := Option.map_eq_some_iff.mp h
    cases heq
    exact hb
  · rw [List.getElem?_append_right (by simpa using hi)] at h
    have hmem := List.mem_of_getElem? h
    simp at hmem

/-- Only activities have a tail that starts with a hash. -/
theorem eq_activity_of_rest (hf : Form.ofKind? k = some f) (hrest : f.rest = .hashAndPerhaps) :
    k = .activity := by
  cases k <;> cases hf <;> first | rfl | cases hrest

end Table

/-! ## 4. Refused values break rules -/

/-- One of the values starts at the place and breaks the rule. -/
def BrokenAt (whole : Value) (vs : List Value) (p : Point) (why : Fault) : Prop :=
  ∃ u ∈ vs, u.point = p ∧ Breaks whole u why

/-- When a value is refused, one of the values in it breaks a rule. -/
def Explained (whole v : Value) : Prop :=
  ∀ p why, v.tree = .error (.fault p why) → BrokenAt whole v.subvalues p why

theorem BrokenAt.mono {whole : Value} {vs ws : List Value} {p : Point} {why : Fault}
    (h : BrokenAt whole vs p why) (hsub : ∀ v ∈ vs, v ∈ ws) : BrokenAt whole ws p why := by
  obtain ⟨u, hu, others⟩ := h
  exact ⟨u, hsub u hu, others⟩

theorem brokenAt_self {whole v : Value} {why : Fault} (h : Breaks whole v why) :
    BrokenAt whole v.subvalues v.point why :=
  ⟨v, self_mem_subvalues v, rfl, h⟩

theorem mem_subvalues_trans {u v w : Value} (hu : u ∈ v.subvalues) (hw : w ∈ u.subvalues) :
    w ∈ v.subvalues := by
  rcases List.mem_cons.mp hu with rfl | hu
  · exact hw
  · exact List.mem_cons_of_mem _ (mem_inner_trans v u hu w hw)

/-- What has a role is inside of the whole. -/
theorem mem_of_stands {whole v : Value} {role : Role} (h : Stands whole role v) :
    v ∈ whole.subvalues := by
  induction h with
  | whole => exact self_mem_subvalues whole
  | argument hform _ _ hv =>
    refine mem_subvalues_trans hform (List.mem_cons_of_mem _ ?_)
    exact mem_inner_form (List.of_mem_zip hv).2 (self_mem_subvalues _)
  | item _ hv ih =>
    refine mem_subvalues_trans ih (List.mem_cons_of_mem _ ?_)
    exact mem_inner_list hv (self_mem_subvalues _)

theorem Wanted.isExpression_role (w : Wanted) : w.role.IsExpression := by
  cases w <;> trivial

section Refused

variable {whole v : Value} {vs : List Value} {p q : Point} {why : Fault} {k : Kind} {f : Form}

/-- A value read as a node of a kind is the form of its word. -/
theorem not_isForm_of_kind? {g : Form} {t : Tree} (hg : Form.ofKind? k = some g)
    (ht : v.tree = .ok t) (hkind : t.kind? ≠ some k) : ¬ v.IsForm g.word := by
  rw [← kind?_eq_some_iff hg, ← (kind?_of_tree ht).2]
  exact hkind

/-- An expression is refused for a rule that is broken in it, or for being of another kind. -/
theorem brokenAt_of_take {w : Wanted} (hw : w.isFormed = true)
    (h : w.take v.reading = .error (.fault q why)) (hstands : Stands whole w.role v)
    (hv : Explained whole v) : BrokenAt whole v.subvalues q why := by
  rcases error_of_bind h with htree | ⟨t, htree, hcheck⟩
  · exact hv q why htree
  · rw [value_reading] at hcheck
    cases w with
    | any => cases hcheck
    | only what kind =>
      obtain ⟨g, hg⟩ := Option.isSome_iff_exists.mp hw
      have hword : Form.wordOf kind = g.word := by rw [Form.wordOf, hg]; rfl
      simp only [Wanted.role, hword] at hstands
      simp only [Wanted.check] at hcheck
      split at hcheck
      · cases hcheck
      · rename_i hkind
        cases hcheck
        exact brokenAt_self (.notOfKind hstands (not_isForm_of_kind? hg htree hkind))

/-- What is broken in an argument is broken in its form. -/
theorem BrokenAt.argument {i : Nat} {word : List Char} (h : BrokenAt whole v.subvalues q why)
    (hv : vs[i]? = some v) : BrokenAt whole (Value.form p word vs).subvalues q why := by
  refine h.mono ?_
  intro u hu
  exact List.mem_cons_of_mem _ (mem_inner_form (List.mem_of_getElem? hv) hu)

/-- What is wanted of an argument or of the items of one is a form or anything. -/
theorem isFormed_of_mem_demands (hf : Form.ofKind? k = some f) (count : Nat) :
    (∀ w, .expression w ∈ f.demands count → w.isFormed = true) ∧
      ∀ a, .list a ∈ f.demands count → a.item.isFormed = true := by
  obtain ⟨hrest, hitem⟩ := isFormed_of_ofKind? hf
  simp only [Form.demands_eq, List.mem_append, List.mem_map, List.mem_replicate, Option.mem_toList,
    reduceCtorEq, and_false, exists_false, false_or, or_false, Demand.expression.injEq,
    Demand.list.injEq, exists_eq_right]
  constructor
  · rintro w (⟨-, rfl⟩ | ⟨-, rfl⟩)
    · rfl
    · exact hrest
  · exact hitem

/-- An argument has the role that is demanded of it. -/
theorem stands_of_demand {i : Nat} {d : Demand} (hf : Form.ofKind? k = some f)
    (hform : .form p f.word.toList vs ∈ whole.subvalues) (htakes : f.takes vs.length = true)
    (hd : (f.demands vs.length)[i]? = some d) (hv : vs[i]? = some v) : Stands whole d.role v := by
  refine .argument hform (mem_symbols_iff.mpr ⟨k, f, hf, rfl, rfl⟩)
    ((takes_places_iff f _).mpr htakes) ?_
  rw [← map_role_demands]
  refine List.mem_of_getElem? (i := i) ?_
  rw [List.getElem?_zip_eq_some]
  simp [hd, hv]

/-- An argument that is no text of those demanded is no string, does not decode, or breaks the rule
of a choice. -/
theorem brokenAt_of_text {i : Nat} {a : TextArgument} (hf : Form.ofKind? k = some f)
    (hd : (f.demands vs.length)[i]? = some (.text a)) (hv : vs[i]? = some v)
    (h : (Demand.text a).meet p v.reading = .error (.fault q why))
    (hstands : Stands whole (.text a.what) v) :
    BrokenAt whole (Value.form p f.word.toList vs).subvalues q why := by
  simp only [Demand.meet, value_reading] at h
  cases v with
  | string q' token =>
    rcases error_of_bind (eq_error_of_map h) with htext | ⟨t, htext, hcheck⟩
    · obtain ⟨heq, hnone⟩ := eq_badEscape_of_readText htext
      cases heq
      exact (brokenAt_self (.badEscape hnone)).argument hv
    · obtain ⟨heq, hnot⟩ := eq_notAllowed_of_check hcheck
      cases heq
      obtain ⟨hempty, hnone⟩ := not_or.mp hnot
      have hchoice := (mem_choices_iff hf).mpr ⟨text_of_getElem?_demands hd, hempty⟩
      refine brokenAt_self (.notAllowed hchoice hv ⟨q', token, rfl, ?_⟩ ?_)
      · exact readText_eq_ok_iff.mp htext
      · intro s hs heq
        exact hnone ⟨s, hs, heq⟩
  | number | constant | form | list =>
    cases h
    exact (brokenAt_self (.notString hstands (by simp))).argument hv

/-- An argument that is no list of what is demanded is no list at all, or an item of it breaks a
rule. -/
theorem brokenAt_of_list {a : ListArgument} (hformed : a.item.isFormed = true)
    (h : (Demand.list a).meet p v.reading = .error (.fault q why))
    (hstands : Stands whole (.list a.what a.item.role) v)
    (hexplained : ∀ u ∈ v.subvalues, ∀ role, Stands whole role u → role.IsExpression →
      Explained whole u) :
    BrokenAt whole v.subvalues q why := by
  simp only [Demand.meet, value_reading] at h
  cases v with
  | list q' us =>
    have hitems : (Value.list q' us).reading.items = us.map Value.reading := by
      rw [Value.reading, readings_eq_map]
    have hmem := mem_of_allOk_eq_error (eq_error_of_map h)
    rw [hitems, List.map_map, List.mem_map] at hmem
    obtain ⟨u, hu, htake⟩ := hmem
    have hitem : Stands whole a.item.role u := .item hstands hu
    have hin : u ∈ (Value.list q' us).subvalues :=
      List.mem_cons_of_mem _ (mem_inner_list hu (self_mem_subvalues u))
    refine (brokenAt_of_take hformed htake hitem ?_).mono ?_
    · exact hexplained u hin _ hitem a.item.isExpression_role
    · exact fun w hw => mem_subvalues_trans hin hw
  | string | number | constant | form =>
    cases h
    exact brokenAt_self (.notList hstands (by simp))

/-- An argument that does not meet its demand breaks the rule of its place, or something in it
breaks one, or the form that it stands in breaks the rule of a choice. -/
theorem brokenAt_of_meet {i : Nat} {d : Demand} (hf : Form.ofKind? k = some f)
    (hform : .form p f.word.toList vs ∈ whole.subvalues) (htakes : f.takes vs.length = true)
    (hd : (f.demands vs.length)[i]? = some d) (hv : vs[i]? = some v)
    (h : d.meet p v.reading = .error (.fault q why))
    (hexplained : ∀ u ∈ v.subvalues, ∀ role, Stands whole role u → role.IsExpression →
      Explained whole u) :
    BrokenAt whole (Value.form p f.word.toList vs).subvalues q why := by
  have hstands : Stands whole d.role v := stands_of_demand hf hform htakes hd hv
  obtain ⟨hexpression, hlist⟩ := isFormed_of_mem_demands hf vs.length
  cases d with
  | expression w =>
    have hw := hexpression w (List.mem_of_getElem? hd)
    refine (brokenAt_of_take hw (eq_error_of_map h) hstands ?_).argument hv
    exact hexplained v (self_mem_subvalues v) _ hstands w.isExpression_role
  | text a => exact brokenAt_of_text hf hd hv h hstands
  | list a =>
    have ha := hlist a (List.mem_of_getElem? hd)
    exact (brokenAt_of_list ha h hstands hexplained).argument hv

/-- What cannot be padded is two expressions after the texts of an activity, the first of which is
no hash. -/
theorem eq_pair_of_padded {r : Rest} {more : List Tree} (hroom : r.Room more.length)
    (h : r.padded more = none) :
    r = .hashAndPerhaps ∧ ∃ t u, more = [t, u] ∧ t.kind? ≠ some .hash := by
  match r, more with
  | .nothing, _ | .many _, _ | .perhaps, [] | .perhaps, _ :: _ => cases h
  | .hashAndPerhaps, [] | .hashAndPerhaps, [_] => cases h
  | .hashAndPerhaps, [t, u] =>
    refine ⟨rfl, t, u, rfl, ?_⟩
    intro ht
    simp [Rest.padded, ht] at h
  | .hashAndPerhaps, _ :: _ :: _ :: _ => simp [Rest.Room] at hroom

/-- Only an activity is not assembled from arguments that meet its demands: one with two expressions
after its texts, the first of which is no hash. -/
theorem activityTail_of_assemble {xs : List Argument} {r : Refusal} (hf : Form.ofKind? k = some f)
    (htakes : f.takes vs.length = true) (hmet : MetAll p (f.demands vs.length) vs xs)
    (h : f.assemble k p xs = .error r) :
    f.word = "activity" ∧ r = .fault p .activityTail ∧
      ∃ style name a b, vs = [style, name, a, b] ∧ ¬ a.IsForm "hash" := by
  obtain ⟨texts, items, first, more, hreads, rfl⟩ := f.metAll_demands_iff.mp ⟨htakes, hmet⟩
  have hnone : f.rest.padded more = none := by
    cases hpadded : f.rest.padded more with
    | none => rfl
    | some tail =>
      have hlen : texts.length = f.texts.length := by
        cases hreads with
        | rows htexts => exact length_of_textsRead htexts
      obtain ⟨head, hhead⟩ := Form.exists_ofTexts? hf hlen
      rw [(Form.assemble_given_eq_ok_iff hf hreads).mpr ⟨head, tail, Head.kind_of_ofTexts? hhead,
        Head.texts_of_ofTexts? hhead, hpadded, rfl⟩] at h
      cases h
  obtain ⟨htexts, hlist, hcount, -, hroom, hmore⟩ := hreads
  rename_i tv lv fv mv
  rw [hmore.length_eq] at hroom
  obtain ⟨hrest, t, u, rfl, ht⟩ := eq_pair_of_padded hroom hnone
  obtain rfl := eq_activity_of_rest hf hrest
  cases hf
  refine ⟨rfl, eq_activityTail_of_fill (eq_error_of_map h), ?_⟩
  obtain rfl := List.eq_nil_of_length_eq_zero hcount
  match tv, fits_of_textsRead htexts, lv, isListOf_of_listRead hlist, mv, hmore with
  | [style, name], .cons _ (.cons _ .nil), [], .nil, [a, b], .cons ha (.cons _ .nil) =>
    exact ⟨style, name, a, b, rfl, not_isForm_of_kind? (k := .hash) rfl ha.1 ht⟩

end Refused

/-- A value that stands where an expression has to is refused for a rule that is broken in it. -/
theorem explained_of_stands (whole v : Value) :
    ∀ role, Stands whole role v → role.IsExpression → Explained whole v := by
  induction v using nested_induction with | step v ih
  intro role hstands hrole q why h
  cases v with
  | string p token =>
    rw [tree_string] at h
    obtain ⟨heq, hnone⟩ := eq_badEscape_of_readText (eq_error_of_map h)
    cases heq
    exact brokenAt_self (.badEscape hnone)
  | number p token =>
    rw [tree_number] at h
    cases (tooLong_of_readNumber h).2
  | constant p word =>
    rw [tree_constant] at h
    cases h
  | list p items =>
    rw [tree_list] at h
    cases h
    exact brokenAt_self (.listAsExpression hstands hrole)
  | form p word vs =>
    have hunknown : kindOfWord? word = none →
        Breaks whole (.form p word vs) (.unknownForm word) := by
      intro hnone
      refine .unknownForm ?_
      rintro ⟨w, s⟩ he hw
      obtain ⟨k, f, hf, rfl, -⟩ := mem_symbols_iff.mp he
      rw [(kindOfWord?_eq_some_iff word k).mpr ⟨f, hf, hw⟩] at hnone
      cases hnone
    rw [tree_form] at h
    unfold readForm at h
    split at h
    · rename_i hnone
      cases h
      exact brokenAt_self (hunknown hnone)
    · rename_i k hk
      obtain ⟨f, hf, rfl⟩ := (kindOfWord?_eq_some_iff word k).mp hk
      have hs : (f.word, f.places) ∈ symbols := mem_symbols_iff.mpr ⟨k, f, hf, rfl, rfl⟩
      rw [hf] at h
      rcases error_of_build h with ⟨htakes, heq⟩ | ⟨htakes, hargument | ⟨xs, hmet, hassemble⟩⟩
      · cases heq
        rw [← length_filled]
        refine brokenAt_self (.argumentCount hs ?_)
        rw [takes_places_iff, htakes]
        exact Bool.false_ne_true
      · obtain ⟨i, d, u, hd, hu, hmeet⟩ := hargument
        refine brokenAt_of_meet hf (mem_of_stands hstands) htakes hd hu hmeet ?_
        intro w hw
        exact ih w (mem_inner_form (List.mem_of_getElem? hu) hw)
      · obtain ⟨hword, heq, style, name, a, b, rfl, ha⟩ :=
          activityTail_of_assemble hf htakes hmet hassemble
        cases heq
        rw [hword]
        exact brokenAt_self (.activityTail ha)

/-! ## 5. Well-formed values break none -/

/-- Holds of the values that may have a role, but for what is inside them. -/
def Role.Fits : Role → Value → Prop
  | .text _, v => v.IsText
  | .list _ item, v => v.IsListOf item.Fits
  | .expression, v => v.IsExpression
  | .node _ word _, v => v.IsForm word

section WellFormed

variable {whole v : Value} {vs : List Value} {k : Kind} {f : Form}

/-- What fits a want has its role. -/
theorem Wanted.fits_role {w : Wanted} (hw : w.isFormed = true) (h : w.Fits v) : w.role.Fits v := by
  cases w with
  | any => exact h
  | only what kind =>
    obtain ⟨g, hg⟩ := Option.isSome_iff_exists.mp hw
    have hword : Form.wordOf kind = g.word := by rw [Form.wordOf, hg]; rfl
    simp only [Wanted.role, Role.Fits, hword]
    exact (kind?_eq_some_iff hg).mp h

theorem forall₂_replicate {role : Role} {vs : List Value} (h : ∀ v ∈ vs, role.Fits v) :
    List.Forall₂ Role.Fits (List.replicate vs.length role) vs := by
  induction vs with
  | nil => exact .nil
  | cons v vs ih =>
    obtain ⟨hv, hvs⟩ := List.forall_mem_cons.mp h
    exact .cons hv (ih hvs)

/-- Arguments of the right shape are as many as there are places, and have the roles of these. -/
theorem fits_of_shaped (hf : Form.ofKind? k = some f) (h : f.Shaped vs) :
    f.places.Takes vs.length ∧ List.Forall₂ Role.Fits (f.places.roles vs.length) vs := by
  obtain ⟨tv, lv, fv, mv, rfl, htexts, hlist, hcount, hfirst, hroom, hmore, -⟩ := h
  obtain ⟨hrest, hitem⟩ := isFormed_of_ofKind? hf
  have hlen : (tv ++ lv ++ fv ++ mv).length = f.required + mv.length := by
    simp [Form.required, htexts.length_eq, hlist.length_eq, hcount, Nat.add_assoc]
  have hfilled : List.Forall₂ Role.Fits f.places.filled (tv ++ lv ++ fv) := by
    refine List.rel_append (List.rel_append ?_ ?_) ?_
    · rw [List.forall₂_map_left_iff]
      refine htexts.imp ?_
      rintro a v ⟨t, ht⟩
      exact ⟨t, ht.1⟩
    · rw [List.forall₂_map_left_iff]
      cases hl : f.list with
      | none =>
        rw [hl] at hlist
        cases hlist
        exact .nil
      | some a =>
        rw [hl] at hlist
        cases hlist with
        | cons hv hnil =>
          cases hnil
          obtain ⟨p, us, rfl, hus⟩ := hv
          exact .cons ⟨p, us, rfl, fun u hu => Wanted.fits_role (hitem a hl) (hus u hu)⟩ .nil
    · rw [← hcount]
      exact forall₂_replicate hfirst
  rw [takes_places_iff, Form.takes_iff, Places.roles, length_filled, hlen, Nat.add_sub_cancel_left]
  refine ⟨⟨Nat.le_add_right _ _, hroom⟩, List.rel_append hfilled (forall₂_replicate ?_)⟩
  intro v hv
  exact Wanted.fits_role hrest (hmore v hv)

/-- The arguments of a sound form have the shape of its symbol. -/
theorem shaped_of_sound {p : Point} {word : String} (h : (Value.form p word.toList vs).Sound) :
    ∃ k f, Form.ofKind? k = some f ∧ f.word = word ∧ f.Shaped vs := by
  obtain ⟨w, hword, hproduction⟩ := h
  obtain rfl := String.toList_inj.mp hword
  exact production_iff.mp hproduction

/-- A symbol has one signature. -/
theorem eq_of_word {k k' : Kind} {f f' : Form} (hf : Form.ofKind? k = some f)
    (hf' : Form.ofKind? k' = some f') (hword : f.word = f'.word) : f = f' := by
  obtain rfl := word_injective k k' f f' hf hf' hword
  exact Option.some.inj (hf.symm.trans hf')

/-- A string says one text. -/
theorem eq_of_says {t t' : Text} (h : v.Says t) (h' : v.Says t') : t = t' := by
  obtain ⟨p, token, rfl, ht⟩ := h
  obtain ⟨_, _, heq, ht'⟩ := h'
  cases heq
  exact Option.some.inj (ht.symm.trans ht')

/-- The texts of arguments of the right shape are allowed. -/
theorem fits_of_getElem? {i : Nat} {a : TextArgument} (h : f.Shaped vs)
    (ha : f.texts[i]? = some a) (hv : vs[i]? = some v) : a.Fits v := by
  obtain ⟨tv, lv, fv, mv, rfl, htexts, -⟩ := h
  have hi : i < tv.length := htexts.length_eq ▸ (List.getElem?_eq_some_iff.mp ha).1
  rw [List.append_assoc, List.append_assoc, List.getElem?_append_left hi] at hv
  refine List.forall₂_zip htexts (List.mem_of_getElem? (i := i) ?_)
  rw [List.getElem?_zip_eq_some]
  exact ⟨ha, hv⟩

/-- Whatever has a role in a well-formed value may have it. -/
theorem fits_of_stands {role : Role} (hw : whole.WellFormed) (h : Stands whole role v) :
    role.Fits v := by
  induction h with
  | whole => exact hw.1
  | argument hform hs _ hv =>
    obtain ⟨k, f, hf, rfl, hshaped⟩ := shaped_of_sound (hw.2 _ hform)
    obtain ⟨k', f', hf', hword, rfl⟩ := mem_symbols_iff.mp hs
    obtain rfl := eq_of_word hf' hf hword
    exact List.forall₂_zip (fits_of_shaped hf hshaped).2 hv
  | item _ hv ih =>
    obtain ⟨_, _, heq, hitems⟩ := ih
    cases heq
    exact hitems _ hv

/-- Well-formed values break no rule. -/
theorem not_breaks_of_wellFormed {u : Value} {why : Fault} (hw : whole.WellFormed)
    (hu : u ∈ whole.subvalues) : ¬ Breaks whole u why := by
  intro h
  cases h with
  | listAsExpression hstands hrole =>
    have hfits := fits_of_stands hw hstands
    rename_i role
    cases role with
    | expression => exact hfits _ _ rfl
    | node =>
      obtain ⟨_, _, heq⟩ := hfits
      cases heq
    | text | list => exact hrole
  | unknownForm h =>
    obtain ⟨w, hword, hproduction⟩ := hw.2 _ hu
    obtain ⟨k, f, hf, rfl, -⟩ := production_iff.mp hproduction
    exact h (f.word, f.places) (mem_symbols_iff.mpr ⟨k, f, hf, rfl, rfl⟩) hword
  | argumentCount hs h =>
    obtain ⟨k, f, hf, rfl, hshaped⟩ := shaped_of_sound (hw.2 _ hu)
    obtain ⟨k', f', hf', hword, rfl⟩ := mem_symbols_iff.mp hs
    obtain rfl := eq_of_word hf' hf hword
    exact h (fits_of_shaped hf hshaped).1
  | notString hstands h =>
    obtain ⟨_, p, token, rfl, -⟩ := fits_of_stands hw hstands
    exact h p token rfl
  | notList hstands h =>
    obtain ⟨p, items, rfl, -⟩ := fits_of_stands hw hstands
    exact h p items rfl
  | notOfKind hstands h => exact h (fits_of_stands hw hstands)
  | notAllowed hchoice hv hsaid h =>
    obtain ⟨k, f, hf, rfl, hshaped⟩ := shaped_of_sound (hw.2 _ hu)
    obtain ⟨htext, hne⟩ := (mem_choices_iff hf).mp hchoice
    obtain ⟨t, ht, hallows⟩ := fits_of_getElem? hshaped htext hv
    obtain rfl := eq_of_says ht hsaid
    obtain ⟨s, hs, heq⟩ := hallows.resolve_left hne
    exact h s hs heq
  | activityTail h =>
    obtain ⟨k, f, hf, hword, hshaped⟩ := shaped_of_sound (hw.2 _ hu)
    obtain rfl := @eq_of_word _ .activity _ _ hf rfl hword
    simp only [shaped_text_iff, shaped_hashAndPerhaps_iff] at hshaped
    obtain ⟨_, _, heq, -, _, _, heq', -, properties, definition, hrest, hhash, -⟩ := hshaped
    cases heq
    cases heq'
    match properties, definition, hrest with
    | some _, some _, rfl => exact h (hhash _ rfl)
  | badEscape h =>
    have hsound := hw.2 _ hu
    simp [Value.Sound, h] at hsound

end WellFormed

/-! ## 6. Texts -/

/-- A row of tokens of the text spells the value, and the text of the first of them stands where the
value starts. -/
def StandsIn (source : List Char) (u : Value) : Prop :=
  ∃ ts k own us before after, (scan source).tokens = ts ++ (k :: own) ++ us ∧
    Spells (k :: own) [u] ∧ source = before ++ (k.text ++ after) ∧ u.point = placeAfter before

theorem standsIn_of_spells {source : List Char} {u v : Value} (h : Spells (scan source).tokens [v])
    (hu : u ∈ v.subvalues) : StandsIn source u := by
  rw [← innerOfAll_singleton] at hu
  obtain ⟨ts, k, own, us, htokens, hspells, hpoint⟩ := holds_of_spells h u hu
  have hmem : k ∈ (scan source).tokens := by simp [htokens]
  obtain ⟨before, after, hsource, -, hplace⟩ := point_of_mem_scanFrom hmem
  rw [Point.afterAll_start] at hplace
  exact ⟨ts, k, own, us, before, after, htokens, hspells, hsource, hpoint ▸ hplace⟩

/-- A grammatical text is refused for what its value is refused for. -/
theorem read_eq_refused_iff {source : List Char} {v : Value} (h : parse source = .ok v)
    {r : Refusal} : read source = .error (.refused r) ↔ v.tree = .error r := by
  rw [read, h]
  dsimp only
  cases v.tree <;> simp [Except.mapError]

end ManifestLint.PN
