/-
ManifestLint.Proofs.WellTyped — trees whose parts are what their fields ask for.

The layout of a kind names the fields of a node; here each field becomes a slot: one place
or a list, perhaps left out, perhaps for nodes of one kind only. The parts of a node have
to fill its slots in order (`Fills`), and a few texts are limited to two words each
(`Head.Worded`).

The main statements: slots in two rows are filled row by row (`fills_append_iff`), and a
tree is well typed when its root is and all its parts are (`wellTyped_node_iff`).
-/
import ManifestLint.Proofs.Preorder

namespace ManifestLint

/-! ## 1. Slots -/

/-- A place for parts: for how many, whether one may be left out, and for which kind of node, any if
none is named. -/
structure Slot where
  many : Bool
  optional : Bool
  kind : Option Kind
  deriving DecidableEq, Repr

namespace Slot

/-- Holds of the trees that may stand in the slot. -/
def Holds (s : Slot) (t : Tree) : Prop :=
  (s.optional = true ∧ t = Tree.absent) ∨
    (t.isNode = true ∧ ∀ k, s.kind = some k → t.kind? = some k)

end Slot

/-- The kind of the nodes in a field that is for nodes of one kind. -/
def Field.kind? : Field → Option Kind
  | .entries => some .entry
  | .parameters => some .parameter
  | .bodies => some .body
  | .options => some .caseOption
  | .properties => some .hash
  | _ => none

namespace Kind

/-- Holds of the fields that a node of the kind may leave out. -/
def omits : Kind → Field → Bool
  | .parameter, .value => true
  | .function, .body | .hostClass, .body | .resourceType, .body => true
  | .virtualQuery, .expr | .exportedQuery, .expr => true
  | .ifStatement, .elseBranch | .unlessStatement, .elseBranch => true
  | .activity, .properties | .activity, .definition => true
  | _, _ => false

/-- The slot of a single field. -/
def single (k : Kind) (field : Field) : Slot := ⟨false, k.omits field, field.kind?⟩

/-- The slot of a list. -/
def several (k : Kind) (field : Field) : Slot := ⟨true, k.omits field, field.kind?⟩

/-- The slots of a node of the kind, in the order of its layout. -/
def slots (k : Kind) : List Slot :=
  k.layout.front.map k.single ++ k.layout.list.toList.map k.several ++ k.layout.back.map k.single

end Kind

/-! ## 2. Parts in slots -/

/-- The parts fill the slots one after another. -/
inductive Fills : List Slot → List Tree → Prop where
  | nil : Fills [] []
  | single {s : Slot} {t : Tree} {ss : List Slot} {ts : List Tree} (hs : s.many = false)
      (ht : s.Holds t) (rest : Fills ss ts) : Fills (s :: ss) (t :: ts)
  | several {s : Slot} {ss : List Slot} {ts us : List Tree} (hs : s.many = true)
      (hts : ∀ t ∈ ts, s.Holds t) (rest : Fills ss us) : Fills (s :: ss) (ts ++ us)

theorem fills_nil_iff {ts : List Tree} : Fills [] ts ↔ ts = [] := by
  constructor
  · intro h
    cases h
    rfl
  · rintro rfl
    exact .nil

theorem fills_single_iff {s : Slot} (hs : s.many = false) {ts : List Tree} :
    Fills [s] ts ↔ ∃ t, ts = [t] ∧ s.Holds t := by
  constructor
  · intro h
    cases h with
    | single _ ht rest =>
      obtain rfl := fills_nil_iff.mp rest
      exact ⟨_, rfl, ht⟩
    | several hm => simp [hs] at hm
  · intro h
    obtain ⟨t, rfl, ht⟩ := h
    exact .single hs ht .nil

theorem fills_several_iff {s : Slot} (hs : s.many = true) {ts : List Tree} :
    Fills [s] ts ↔ ∀ t ∈ ts, s.Holds t := by
  constructor
  · intro h
    cases h with
    | single hm => simp [hs] at hm
    | several _ hts rest =>
      obtain rfl := fills_nil_iff.mp rest
      simpa using hts
  · intro hts
    simpa using Fills.several hs hts .nil

/-- Slots in two rows are filled row by row. -/
theorem fills_append_iff {ss ss' : List Slot} {ts : List Tree} :
    Fills (ss ++ ss') ts ↔ ∃ us vs, ts = us ++ vs ∧ Fills ss us ∧ Fills ss' vs := by
  constructor
  · intro h
    induction ss generalizing ts with
    | nil => exact ⟨[], ts, rfl, .nil, h⟩
    | cons s ss ih =>
      cases h with
      | single hs ht rest =>
        obtain ⟨us, vs, rfl, hus, hvs⟩ := ih rest
        exact ⟨_ :: us, vs, rfl, .single hs ht hus, hvs⟩
      | several hs hts rest =>
        obtain ⟨us, vs, rfl, hus, hvs⟩ := ih rest
        exact ⟨_ ++ us, vs, (List.append_assoc _ us vs).symm, .several hs hts hus, hvs⟩
  · intro h
    obtain ⟨us, vs, rfl, hus, hvs⟩ := h
    induction hus with
    | nil => exact hvs
    | single hs ht _ ih => exact .single hs ht ih
    | several hs hts _ ih =>
      rw [List.append_assoc]
      exact .several hs hts ih

/-- What fills slots of which none may be left out are nodes. -/
theorem isNode_of_fills {ss : List Slot} {ts : List Tree} (h : Fills ss ts)
    (hss : ∀ s ∈ ss, s.optional = false) : ∀ t ∈ ts, t.isNode = true := by
  have hholds : ∀ s ∈ ss, ∀ t, s.Holds t → t.isNode = true := by
    intro s hs t ht
    rcases ht with ⟨hoptional, -⟩ | ⟨hnode, -⟩
    · rw [hss s hs] at hoptional
      cases hoptional
    · exact hnode
  induction h with
  | nil => simp
  | single _ ht _ ih =>
    rw [List.forall_mem_cons] at hss hholds
    exact List.forall_mem_cons.mpr ⟨hholds.1 _ ht, ih hss.2 hholds.2⟩
  | several _ hts _ ih =>
    rw [List.forall_mem_cons] at hss hholds
    exact List.forall_mem_append.mpr ⟨fun t ht => hholds.1 t (hts t ht), ih hss.2 hholds.2⟩

/-- Single slots take one tree each. -/
theorem length_of_fills {ss : List Slot} {ts : List Tree} (h : Fills ss ts)
    (hss : ∀ s ∈ ss, s.many = false) : ts.length = ss.length := by
  induction h with
  | nil => rfl
  | single _ _ _ ih =>
    rw [List.length_cons, List.length_cons, ih (List.forall_mem_cons.mp hss).2]
  | several hs => simp [(List.forall_mem_cons.mp hss).1] at hs

/-- A single slot is not left empty. -/
theorem ne_nil_of_fills {s : Slot} {ss : List Slot} {ts : List Tree} (hs : s.many = false)
    (h : Fills (s :: ss) ts) : ts ≠ [] := by
  cases h with
  | single => simp
  | several hm => simp [hs] at hm

/-- Slots of one sort take as many trees as there are slots. -/
theorem fills_replicate_iff {s : Slot} (hs : s.many = false) {n : Nat} {ts : List Tree} :
    Fills (List.replicate n s) ts ↔ ts.length = n ∧ ∀ t ∈ ts, s.Holds t := by
  induction n generalizing ts with
  | zero =>
    rw [List.replicate_zero, fills_nil_iff]
    constructor
    · rintro rfl
      simp
    · intro h
      obtain ⟨h, -⟩ := h
      exact List.eq_nil_of_length_eq_zero h
  | succ n ih =>
    rw [List.replicate_succ]
    constructor
    · intro h
      cases h with
      | single _ ht rest =>
        obtain ⟨hlen, hts⟩ := ih.mp rest
        exact ⟨by simp [hlen], List.forall_mem_cons.mpr ⟨ht, hts⟩⟩
      | several hm => simp [hs] at hm
    · intro h
      obtain ⟨hlen, hts⟩ := h
      match ts, hlen with
      | t :: ts, hlen =>
        obtain ⟨ht, hts⟩ := List.forall_mem_cons.mp hts
        exact .single hs ht (ih.mpr ⟨Nat.succ.inj hlen, hts⟩)

/-! ## 3. Trees -/

/-- The parts are those of an activity with a hash for its definition and no property hash. -/
def Kind.Ambiguous (k : Kind) (ps : List Tree) : Prop :=
  k = .activity ∧ ∃ definition, ps = [Tree.absent, definition] ∧ definition.kind? = some .hash

/-- The operator of an attribute and the sort of a mapping are one of two words each. -/
def Head.Worded : Head → Prop
  | .attr _ operator => operator = Text.ofString "=>" ∨ operator = Text.ofString "+>"
  | .capabilityMapping kind => kind = Text.ofString "produces" ∨ kind = Text.ofString "consumes"
  | _ => True

namespace Tree

@[simp] theorem kind?_absent : absent.kind? = none := rfl

/-- Only nodes have a kind. -/
theorem isNode_of_kind? {t : Tree} {k : Kind} (h : t.kind? = some k) : t.isNode = true := by
  cases t with
  | node => rfl
  | foreign => cases h

/-- A node whose texts are as they should be and whose parts fill its slots. -/
def Typed : Tree → Prop
  | node h _ ps => h.Worded ∧ Fills h.kind.slots ps
  | foreign _ => False

/-- A node whose parts fill its slots, whatever its texts are. -/
def Filled : Tree → Prop
  | node h _ ps => Fills h.kind.slots ps
  | foreign _ => False

/-- An activity that would be written like one whose definition is its property hash. -/
def Ambiguous : Tree → Prop
  | node h _ ps => h.kind.Ambiguous ps
  | foreign _ => False

theorem filled_of_typed {t : Tree} (h : t.Typed) : t.Filled := by
  cases t with
  | node => exact h.2
  | foreign => exact h

/-- A node all of whose nodes, itself included, are typed. -/
def WellTyped (t : Tree) : Prop := t.isNode = true ∧ ∀ u ∈ t.nodes, u.Typed

/-- A property of all nodes of a node is a property of itself and of all nodes of its parts. -/
theorem forall_nodes_node_iff {P : Tree → Prop} {h : Head} {l : Location} {ps : List Tree} :
    (∀ u ∈ (node h l ps).nodes, P u) ↔ P (node h l ps) ∧ ∀ t ∈ ps, ∀ u ∈ t.nodes, P u := by
  simp only [nodes_node, List.forall_mem_cons, List.mem_flatMap]
  constructor
  · intro h
    obtain ⟨hself, h⟩ := h
    exact ⟨hself, fun t ht u hu => h u ⟨t, ht, hu⟩⟩
  · intro h
    obtain ⟨hself, h⟩ := h
    exact ⟨hself, fun u ⟨t, ht, hu⟩ => h t ht u hu⟩

/-- A node is well typed when it is typed and its parts that are nodes are well typed. -/
theorem wellTyped_node_iff {h : Head} {l : Location} {ps : List Tree} :
    (node h l ps).WellTyped ↔
      (node h l ps).Typed ∧ ∀ t ∈ ps, t.isNode = true → t.WellTyped := by
  simp only [WellTyped, forall_nodes_node_iff, isNode_node, true_and, and_congr_right_iff]
  intro _
  constructor
  · intro h t ht hn
    exact ⟨hn, h t ht⟩
  · intro h t ht u hu
    cases t with
    | node => exact (h _ ht rfl).2 u hu
    | foreign => simp at hu

end Tree

end ManifestLint
