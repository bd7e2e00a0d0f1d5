/-
ManifestLint.Proofs.FormParts — what the rows of a form's arguments make of the node's parts.

A form's signature and its kind's layout were written down apart. Here they meet: the list,
the expressions and the rest of a signature stand for the very slots of the layout
(`slots_of_ofKind?`), and the texts that a signature allows are the words that a head may
have (`worded_iff_allows`).

The main statements: padding does nothing but set absent parts around the expressions
(`exists_padding`), and rows of nodes, padded, are exactly the parts that fill the slots, but
for an activity that has a hash for its definition and no property hash (`fills_slots_iff`).
-/
import ManifestLint.Proofs.FormReading
import ManifestLint.Proofs.WellTyped

namespace ManifestLint.PN

/-! ## 1. The slots of a signature -/

/-- The kind of node that is wanted, if it is one only. -/
def Wanted.kind? : Wanted → Option Kind
  | any => none
  | only _ kind => some kind

theorem Wanted.admits_iff {w : Wanted} {t : Tree} :
    w.Admits t ↔ ∀ k, w.kind? = some k → t.kind? = some k := by
  cases w <;> simp [Wanted.Admits, Wanted.kind?]

/-- The slots of the parts after the required expressions. -/
def Rest.slots : Rest → List Slot
  | nothing => []
  | perhaps => [⟨false, true, none⟩]
  | many item => [⟨true, false, item.kind?⟩]
  | hashAndPerhaps => [⟨false, true, some .hash⟩, ⟨false, true, none⟩]

namespace Form

/-- The slots that the arguments of a form are for. -/
def slots (f : Form) : List Slot :=
  f.list.toList.map (fun a => ⟨true, false, a.item.kind?⟩) ++
    List.replicate f.expressions ⟨false, false, none⟩ ++ f.rest.slots

/-- A signature has the slots of its kind's layout. -/
theorem slots_of_ofKind? {k : Kind} {f : Form} (hf : ofKind? k = some f) : f.slots = k.slots := by
  cases k <;> cases hf <;> rfl

end Form

/-- A literal has no parts. -/
theorem slots_of_ofKind?_none {k : Kind} (hk : Form.ofKind? k = none) : k.slots = [] := by
  cases k <;> first | rfl | cases hk

/-! ## 2. The words of a head -/

/-- A head that no signature limits is worded as it should be. -/
theorem worded_of_ofKind?_none {h : Head} (hk : Form.ofKind? h.kind = none) : h.Worded := by
  cases h <;> first | exact trivial | cases hk

theorem allows_anyText (what : String) (t : Text) : (anyText what).Allows t := .inl rfl

theorem allows_pair_iff {what a b : String} {t : Text} :
    (⟨what, [a, b]⟩ : TextArgument).Allows t ↔ t = Text.ofString a ∨ t = Text.ofString b := by
  simp only [TextArgument.Allows, reduceCtorEq, false_or, List.mem_cons, List.not_mem_nil, or_false,
    exists_eq_or_imp, exists_eq_left, eq_comm (b := t)]

/-- The texts of a head are those that its signature allows. -/
theorem worded_iff_allows {h : Head} {f : Form} (hf : Form.ofKind? h.kind = some f) :
    h.Worded ↔ List.Forall₂ TextArgument.Allows f.texts h.texts := by
  cases h <;> cases hf <;>
    simp only [Head.Worded, Head.texts, operatorForm, textForm, definitionForm, binaryForm,
      unaryForm, operationsForm, conditionalForm, List.forall₂_cons, List.forall₂_nil_left_iff,
      allows_anyText, allows_pair_iff, true_and, and_true]

/-! ## 3. Padding -/

namespace Rest

/-- Padding sets absent parts around the expressions; how many goes by the kinds of these alone. -/
theorem exists_padding {r : Rest} {more tail : List Tree} (h : r.padded more = some tail) :
    ∃ before after : Nat, ∀ more' : List Tree,
      more'.map Tree.kind? = more.map Tree.kind? → r.padded more' =
        some (List.replicate before Tree.absent ++ more' ++ List.replicate after Tree.absent) := by
  match r, more with
  | nothing, _ | many _, _ => exact ⟨0, 0, fun more' _ => by simp [padded]⟩
  | perhaps, [] =>
    refine ⟨1, 0, ?_⟩
    intro more' hkinds
    obtain rfl := List.map_eq_nil_iff.mp hkinds
    rfl
  | perhaps, _ :: _ =>
    refine ⟨0, 0, ?_⟩
    intro more' hkinds
    obtain ⟨t, ts, rfl, -, -⟩ := List.map_eq_cons_iff.mp hkinds
    simp [padded]
  | hashAndPerhaps, [] =>
    refine ⟨2, 0, ?_⟩
    intro more' hkinds
    obtain rfl := List.map_eq_nil_iff.mp hkinds
    rfl
  | hashAndPerhaps, [a] =>
    by_cases ha : a.kind? = some .hash
    · refine ⟨0, 1, ?_⟩
      intro more' hkinds
      obtain ⟨t, rfl, ht⟩ := List.map_eq_singleton_iff.mp hkinds
      simp [padded, ht, ha]
    · refine ⟨1, 0, ?_⟩
      intro more' hkinds
      obtain ⟨t, rfl, ht⟩ := List.map_eq_singleton_iff.mp hkinds
      simp [padded, ht, ha]
  | hashAndPerhaps, [a, b] =>
    by_cases ha : a.kind? = some .hash
    · refine ⟨0, 0, ?_⟩
      intro more' hkinds
      obtain ⟨t, _, rfl, ht, hrest⟩ := List.map_eq_cons_iff.mp hkinds
      obtain ⟨u, rfl, -⟩ := List.map_eq_singleton_iff.mp hrest
      simp [padded, ht, ha]
    · simp [padded, ha] at h
  | hashAndPerhaps, _ :: _ :: _ :: _ => cases h

/-- What is padded has absent parts before and after it. -/
theorem eq_of_padded {r : Rest} {more tail : List Tree} (h : r.padded more = some tail) :
    ∃ before after : Nat,
      tail = List.replicate before Tree.absent ++ more ++ List.replicate after Tree.absent := by
  obtain ⟨before, after, hpadding⟩ := exists_padding h
  exact ⟨before, after, Option.some.inj (h.symm.trans (hpadding more rfl))⟩

/-- Padding adds nothing to what is gathered from nodes. -/
theorem flatMap_of_padded {β : Type} {g : Tree → List β} (hg : g Tree.absent = []) {r : Rest}
    {more tail : List Tree} (h : r.padded more = some tail) : tail.flatMap g = more.flatMap g := by
  have habsent : ∀ n, (List.replicate n Tree.absent).flatMap g = [] := by
    intro n
    rw [List.flatMap_replicate, hg, List.flatten_replicate_nil]
  obtain ⟨before, after, rfl⟩ := eq_of_padded h
  rw [List.flatMap_append, List.flatMap_append, habsent, habsent, List.nil_append,
    List.append_nil]

/-- Padding adds nothing but absent parts. -/
theorem mem_of_padded {r : Rest} {more tail : List Tree} (h : r.padded more = some tail) {t : Tree}
    (ht : t ∈ tail) : t = Tree.absent ∨ t ∈ more := by
  obtain ⟨before, after, rfl⟩ := eq_of_padded h
  simp only [List.mem_append, List.mem_replicate] at ht
  rcases ht with (⟨-, rfl⟩ | ht) | ⟨-, rfl⟩
  · exact .inl rfl
  · exact .inr ht
  · exact .inl rfl

/-- Padding drops nothing. -/
theorem mem_padded {r : Rest} {more tail : List Tree} (h : r.padded more = some tail) {t : Tree}
    (ht : t ∈ more) : t ∈ tail := by
  obtain ⟨before, after, rfl⟩ := eq_of_padded h
  simp [ht]

end Rest

/-! ## 4. Rows of parts -/

/-- The trees of the rows of a form: the items of its list, its required expressions and those
after them. -/
structure Form.Divides (f : Form) (items first more : List Tree) : Prop where
  items : ∀ t ∈ items, t.isNode = true ∧ ∃ a, f.list = some a ∧ a.item.Admits t
  count : first.length = f.expressions
  first : ∀ t ∈ first, t.isNode = true
  room : f.rest.Room more.length
  more : ∀ t ∈ more, t.isNode = true ∧ f.rest.wanted.Admits t

/-- A form without a list has no items. -/
theorem Form.Divides.items_eq_nil {f : Form} {items first more : List Tree}
    (h : f.Divides items first more) (hlist : f.list = none) : items = [] := by
  rw [List.eq_nil_iff_forall_not_mem]
  intro t ht
  obtain ⟨-, a, ha, -⟩ := h.items t ht
  rw [hlist] at ha
  cases ha

/-- An activity has no property hash, but a hash for its definition. -/
def Rest.Bare : Rest → List Tree → Prop
  | hashAndPerhaps, [t, u] => t = Tree.absent ∧ u.kind? = some .hash
  | _, _ => False

/-- Required expressions are single slots for any node. -/
theorem holds_any_iff {many : Bool} {t : Tree} :
    (⟨many, false, none⟩ : Slot).Holds t ↔ t.isNode = true := by
  simp [Slot.Holds]

theorem holds_wanted_iff {many : Bool} {w : Wanted} {t : Tree} :
    (⟨many, false, w.kind?⟩ : Slot).Holds t ↔ t.isNode = true ∧ w.Admits t := by
  simp [Slot.Holds, Wanted.admits_iff]

/-- A slot that may be left out is filled by any node or by nothing. -/
theorem holds_perhaps_iff {many : Bool} {t : Tree} :
    (⟨many, true, none⟩ : Slot).Holds t ↔ t = Tree.absent ∨ t.isNode = true := by
  simp [Slot.Holds]

theorem holds_hash_iff {many : Bool} {t : Tree} :
    (⟨many, true, some .hash⟩ : Slot).Holds t ↔ t = Tree.absent ∨ t.kind? = some .hash := by
  constructor
  · rintro (⟨-, h⟩ | ⟨-, h⟩)
    · exact .inl h
    · exact .inr (h .hash rfl)
  · rintro (h | h)
    · exact .inl ⟨rfl, h⟩
    · exact .inr ⟨Tree.isNode_of_kind? h, fun k hk => hk ▸ h⟩

namespace Rest

theorem fills_perhaps_iff {tail : List Tree} :
    Fills perhaps.slots tail ↔ ∃ t, tail = [t] ∧ (t = Tree.absent ∨ t.isNode = true) := by
  simp only [slots, fills_single_iff, holds_perhaps_iff]

theorem fills_hashAndPerhaps_iff {tail : List Tree} :
    Fills hashAndPerhaps.slots tail ↔ ∃ t u, tail = [t, u] ∧
      (t = Tree.absent ∨ t.kind? = some .hash) ∧ (u = Tree.absent ∨ u.isNode = true) := by
  have hsplit : hashAndPerhaps.slots =
      [⟨false, true, some .hash⟩] ++ [⟨false, true, none⟩] := rfl
  rw [hsplit, fills_append_iff]
  simp only [fills_single_iff, holds_hash_iff, holds_perhaps_iff]
  constructor
  · intro h
    obtain ⟨_, _, rfl, ⟨t, rfl, ht⟩, u, rfl, hu⟩ := h
    exact ⟨t, u, rfl, ht, hu⟩
  · intro h
    obtain ⟨t, u, rfl, ht, hu⟩ := h
    exact ⟨[t], [u], rfl, ⟨t, rfl, ht⟩, u, rfl, hu⟩

/-- What fills the last slots is made of expressions by padding, unless it is ambiguous. -/
theorem padded_of_fills {r : Rest} {tail : List Tree} (h : Fills r.slots tail)
    (hbare : ¬ r.Bare tail) : ∃ more, r.Room more.length ∧
      (∀ t ∈ more, t.isNode = true ∧ r.wanted.Admits t) ∧ r.padded more = some tail := by
  cases r with
  | nothing =>
    obtain rfl := fills_nil_iff.mp h
    exact ⟨[], rfl, by simp, rfl⟩
  | perhaps =>
    obtain ⟨t, rfl, rfl | ht⟩ := fills_perhaps_iff.mp h
    · exact ⟨[], by simp [Room], by simp, rfl⟩
    · exact ⟨[t], by simp [Room], by simpa [wanted, Wanted.Admits] using ht, rfl⟩
  | many item =>
    simp only [slots, fills_several_iff, holds_wanted_iff] at h
    exact ⟨tail, trivial, h, rfl⟩
  | hashAndPerhaps =>
    simp only [wanted, Wanted.Admits, and_true]
    obtain ⟨t, u, rfl, rfl | ht, rfl | hu⟩ := fills_hashAndPerhaps_iff.mp h
    · exact ⟨[], by simp [Room], by simp, rfl⟩
    · have hne : u.kind? ≠ some .hash := fun hk => hbare ⟨rfl, hk⟩
      exact ⟨[u], by simp [Room], by simpa using hu, by simp [padded, hne]⟩
    · exact ⟨[t], by simp [Room], by simpa using Tree.isNode_of_kind? ht, by simp [padded, ht]⟩
    · exact ⟨[t, u], by simp [Room], by simp [hu, Tree.isNode_of_kind? ht], by simp [padded, ht]⟩

/-- Expressions that there is room for, padded, fill the last slots without ambiguity. -/
theorem fills_of_padded {r : Rest} {more tail : List Tree} (hroom : r.Room more.length)
    (hmore : ∀ t ∈ more, t.isNode = true ∧ r.wanted.Admits t)
    (hpadded : r.padded more = some tail) : Fills r.slots tail ∧ ¬ r.Bare tail := by
  cases r with
  | nothing =>
    obtain rfl := List.eq_nil_of_length_eq_zero hroom
    cases hpadded
    exact ⟨.nil, id⟩
  | perhaps =>
    rw [fills_perhaps_iff]
    refine ⟨?_, id⟩
    rcases more with _ | ⟨t, _ | ⟨u, more⟩⟩
    · cases hpadded
      exact ⟨_, rfl, .inl rfl⟩
    · cases hpadded
      exact ⟨t, rfl, .inr (hmore t (by simp)).1⟩
    · simp [Room] at hroom
  | many item =>
    cases hpadded
    simp only [slots, fills_several_iff, holds_wanted_iff]
    exact ⟨hmore, id⟩
  | hashAndPerhaps =>
    rw [fills_hashAndPerhaps_iff]
    rcases more with _ | ⟨t, _ | ⟨u, _ | ⟨w, more⟩⟩⟩
    · cases hpadded
      exact ⟨⟨_, _, rfl, .inl rfl, .inl rfl⟩, by simp [Bare, Tree.kind?_absent]⟩
    · have hnode := (hmore t (by simp)).1
      by_cases ht : t.kind? = some .hash
      · obtain rfl : [t, Tree.absent] = tail := by simpa [padded, ht] using hpadded
        exact ⟨⟨t, _, rfl, .inr ht, .inl rfl⟩, by simp [Bare, Tree.kind?_absent]⟩
      · obtain rfl : [Tree.absent, t] = tail := by simpa [padded, ht] using hpadded
        exact ⟨⟨_, t, rfl, .inl rfl, .inr hnode⟩, by simp [Bare, ht]⟩
    · have hnode := (hmore u (by simp)).1
      by_cases ht : t.kind? = some .hash
      · obtain rfl : [t, u] = tail := by simpa [padded, ht] using hpadded
        have hne : t ≠ Tree.absent := by
          rintro rfl
          cases ht
        exact ⟨⟨t, u, rfl, .inr ht, .inr hnode⟩, by simp [Bare, hne]⟩
      · simp [padded, ht] at hpadded
    · simp [Room] at hroom

end Rest

/-- Only an activity takes a hash and an expression at its end, and it takes nothing else. -/
theorem ambiguous_iff {k : Kind} {f : Form} (hf : Form.ofKind? k = some f)
    {items first tail : List Tree}
    (hitems : Fills (f.list.toList.map fun a => ⟨true, false, a.item.kind?⟩) items)
    (hfirst : Fills (List.replicate f.expressions ⟨false, false, none⟩) first) :
    k.Ambiguous (items ++ first ++ tail) ↔ f.rest.Bare tail := by
  cases hrest : f.rest with
  | hashAndPerhaps =>
    have hk : k = .activity := by cases k <;> cases hf <;> first | rfl | cases hrest
    obtain ⟨hnone, hzero⟩ := Form.rows_of_hashAndPerhaps hf hrest
    rw [hnone] at hitems
    rw [hzero] at hfirst
    obtain rfl := fills_nil_iff.mp hitems
    obtain rfl := fills_nil_iff.mp hfirst
    simp only [Kind.Ambiguous, hk, true_and, List.nil_append]
    constructor
    · intro h
      obtain ⟨u, rfl, hu⟩ := h
      exact ⟨rfl, hu⟩
    · intro h
      match tail, h with
      | [_, u], ⟨rfl, hu⟩ => exact ⟨u, rfl, hu⟩
  | nothing | perhaps | many item =>
    have hk : k ≠ .activity := by rintro rfl; cases hf; cases hrest
    simp [Kind.Ambiguous, Rest.Bare, hk]

/-- The parts that fill the slots of a kind are the rows of its form, the last one padded. -/
theorem fills_slots_iff {k : Kind} {f : Form} (hf : Form.ofKind? k = some f) {ps : List Tree} :
    Fills k.slots ps ∧ ¬ k.Ambiguous ps ↔ ∃ items first more tail,
      ps = items ++ first ++ tail ∧ f.Divides items first more ∧
        f.rest.padded more = some tail := by
  have hitems : ∀ items, Fills (f.list.toList.map fun a => ⟨true, false, a.item.kind?⟩) items ↔
      ∀ t ∈ items, t.isNode = true ∧ ∃ a, f.list = some a ∧ a.item.Admits t := by
    intro items
    cases f.list with
    | none => simp [fills_nil_iff, List.eq_nil_iff_forall_not_mem]
    | some a => simp [fills_several_iff, holds_wanted_iff]
  have hfirst : ∀ first, Fills (List.replicate f.expressions ⟨false, false, none⟩) first ↔
      first.length = f.expressions ∧ ∀ t ∈ first, t.isNode = true := by
    intro first
    simp only [fills_replicate_iff, holds_any_iff]
  rw [← Form.slots_of_ofKind? hf, Form.slots]
  constructor
  · intro h
    obtain ⟨h, hbare⟩ := h
    obtain ⟨_, tail, rfl, h, htail⟩ := fills_append_iff.mp h
    obtain ⟨items, first, rfl, hi, hf'⟩ := fills_append_iff.mp h
    rw [ambiguous_iff hf hi hf'] at hbare
    obtain ⟨more, hroom, hmore, hpadded⟩ := Rest.padded_of_fills htail hbare
    obtain ⟨hcount, hnodes⟩ := (hfirst first).mp hf'
    exact ⟨items, first, more, tail, rfl, ⟨(hitems items).mp hi, hcount, hnodes, hroom, hmore⟩,
      hpadded⟩
  · intro h
    obtain ⟨items, first, more, tail, rfl, h, hpadded⟩ := h
    have hi := (hitems items).mpr h.items
    have hf' := (hfirst first).mpr ⟨h.count, h.first⟩
    obtain ⟨htail, hbare⟩ := Rest.fills_of_padded h.room h.more hpadded
    rw [ambiguous_iff hf hi hf']
    exact ⟨fills_append_iff.mpr ⟨_, tail, rfl, fills_append_iff.mpr ⟨items, first, rfl, hi, hf'⟩,
      htail⟩, hbare⟩

end ManifestLint.PN
