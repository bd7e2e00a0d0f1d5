/-
ManifestLint.Proofs.RoundTrip — every tree that PN can denote is read back from its spelling.

The spelling of a tree is its lexemes, each followed by a space. That the scan gives these
lexemes back is known; what is left is to build the values that the tokens spell, and to see
that they denote the tree again. Only an activity that would be taken for another one, a
float or too long an integer stands in the way (`Tree.Denotable`).

The main statements: tokens that mean the lexemes of a typed tree spell a value that denotes
it (`writes_of_meaning`), and the spelling of a tree is read as the tree, locations aside
(`read_spelling`).
-/
import ManifestLint.Proofs.Spelling

namespace ManifestLint

open PN

/-! ## 1. Trees that can be written -/

/-- Holds of the heads that PN has an exact spelling for: no float, and no integer of too many
digits. -/
def Head.Exact : Head → Prop
  | .integer n => n.natAbs < 10 ^ Numeral.digitLimit
  | .float _ => False
  | _ => True

namespace Tree

/-- What holds of a node as soon as it holds of its parts holds of every tree. -/
theorem parts_induction {P : Tree → Prop} (node : ∀ h l ps, (∀ t ∈ ps, P t) → P (node h l ps))
    (foreign : ∀ x, P (foreign x)) (t : Tree) : P t := by
  cases t with
  | node h l ps => exact node h l ps fun t _ => parts_induction node foreign t
  | foreign x => exact foreign x

/-- A tree written down: its lexemes, each followed by a space. -/
def spelling (t : Tree) : List Char := spellings t.lexemes

/-- A well-typed tree that PN has an exact spelling for: no activity hides its properties, and no
number is in the way. -/
structure Denotable (t : Tree) : Prop where
  wellTyped : t.WellTyped
  unambiguous : ∀ u ∈ t.nodes, ¬ u.Ambiguous
  exact : ∀ u ∈ t.nodes, ∀ h, u.head? = some h → h.Exact

theorem unlocatedAll_eq_map (ts : List Tree) : unlocatedAll ts = ts.map unlocated := by
  induction ts with
  | nil => rfl
  | cons t ts ih => rw [unlocatedAll, ih, List.map_cons]

/-- Locations do not matter to the kind of a tree. -/
@[simp] theorem kind?_unlocated (t : Tree) : t.unlocated.kind? = t.kind? := by
  cases t <;> rfl

end Tree

namespace PN

/-! ## 2. The lexemes of a denotable tree can be spelled -/

theorem isSymbol_of_ofKind? {k : Kind} {f : Form} (hf : Form.ofKind? k = some f) :
    isSymbol f.word.toList = true := by
  cases k <;> cases hf <;> decide

theorem spellable_of_literal? {h : Head} {l : Lexeme} (hl : h.literal? = some l) (hh : h.Exact) :
    l.Spellable := by
  cases h with
  | integer n =>
    cases hl
    exact hh
  | float x => exact hh.elim
  | boolean b => cases b <;> cases hl <;> exact trivial
  | string | undef =>
    cases hl
    exact trivial
  | _ => cases hl

theorem mem_spread {f : Form} {parts : List (List Lexeme)} {l : Lexeme} (h : l ∈ f.spread parts) :
    l = .leftBracket ∨ l = .rightBracket ∨ ∃ p ∈ parts, l ∈ p := by
  unfold Form.spread at h
  split at h
  · simp only [List.mem_cons, List.mem_append, List.mem_flatten] at h
    rcases h with rfl | ⟨p, hp, hl⟩ | rfl | hl
    · exact .inl rfl
    · exact .inr (.inr ⟨p, (List.dropLast_sublist parts).subset hp, hl⟩)
    · exact .inr (.inl rfl)
    · cases hlast : parts.getLast? with
      | none => simp [hlast] at hl
      | some p =>
        rw [hlast] at hl
        exact .inr (.inr ⟨p, List.mem_of_getLast? hlast, hl⟩)
  · obtain ⟨p, hp, hl⟩ := List.mem_flatten.mp h
    exact .inr (.inr ⟨p, hp, hl⟩)

/-- A tree with exact heads has lexemes that can be spelled. -/
theorem spellable_of_mem_lexemes (t : Tree) :
    (∀ u ∈ t.nodes, ∀ h, u.head? = some h → h.Exact) → ∀ l ∈ t.lexemes, l.Spellable := by
  induction t using Tree.parts_induction with
  | foreign x => simp [Tree.lexemes]
  | node h loc ps ih =>
    intro hexact l hl
    rw [Tree.forall_nodes_node_iff] at hexact
    obtain ⟨hself, hparts⟩ := hexact
    rw [Tree.lexemes, Tree.lexemesOfParts_eq_map, Head.lexemes] at hl
    cases hf : Form.ofKind? h.kind with
    | none =>
      rw [hf] at hl
      exact spellable_of_literal? (by simpa using hl) (hself h rfl)
    | some f =>
      rw [hf] at hl
      simp only [List.mem_cons, List.mem_append, List.mem_map, List.not_mem_nil, or_false] at hl
      rcases hl with rfl | rfl | ⟨x, -, rfl⟩ | hl | rfl
      · trivial
      · exact isSymbol_of_ofKind? hf
      · trivial
      · rcases mem_spread hl with rfl | rfl | ⟨p, hp, hl⟩
        · trivial
        · trivial
        · obtain ⟨u, hu, rfl⟩ := List.mem_map.mp hp
          exact ih u hu (hparts u hu) l hl
      · trivial

/-! ## 3. Tokens that write trees -/

/-- The tokens spell values that denote the trees, wherever these stand. -/
def Writes (ts : List Token) (xs : List Tree) : Prop :=
  ∃ vs ys, Spells ts vs ∧ List.Forall₂ (fun v y => v.tree = .ok y) vs ys ∧
    ys.map Tree.unlocated = xs.map Tree.unlocated

theorem Writes.append {ts us : List Token} {xs ys : List Tree} (h : Writes ts xs)
    (h' : Writes us ys) : Writes (ts ++ us) (xs ++ ys) := by
  obtain ⟨vs, zs, hspells, htrees, heq⟩ := h
  obtain ⟨vs', zs', hspells', htrees', heq'⟩ := h'
  refine ⟨vs ++ vs', zs ++ zs', hspells.append hspells', List.rel_append htrees htrees', ?_⟩
  rw [List.map_append, List.map_append, heq, heq']

/-- Trees are written one by one. -/
theorem writes_of_forall {xs : List Tree}
    (h : ∀ x ∈ xs, ∀ ts : List Token, ts.map Token.meaning = x.lexemes.map some → Writes ts [x]) :
    ∀ ts : List Token, ts.map Token.meaning = (xs.flatMap Tree.lexemes).map some →
      Writes ts xs := by
  induction xs with
  | nil =>
    intro ts hts
    rw [List.flatMap_nil, List.map_nil, List.map_eq_nil_iff] at hts
    rw [hts]
    exact ⟨[], [], .nil, .nil, rfl⟩
  | cons x xs ih =>
    intro ts hts
    rw [List.forall_mem_cons] at h
    rw [List.flatMap_cons, List.map_append, List.map_eq_append_iff] at hts
    obtain ⟨us, us', rfl, hx, hxs⟩ := hts
    exact (h.1 us hx).append (ih h.2 us' hxs)

/-- Written trees of the wanted kind are read. -/
theorem reads_of_writes {w : Wanted} {ts : List Token} {xs : List Tree} (h : Writes ts xs)
    (hw : ∀ x ∈ xs, w.Admits x) : ∃ vs ys, Spells ts vs ∧ List.Forall₂ w.Reads vs ys ∧
      ys.map Tree.unlocated = xs.map Tree.unlocated := by
  obtain ⟨vs, ys, hspells, htrees, heq⟩ := h
  refine ⟨vs, ys, hspells, ?_, heq⟩
  clear hspells
  induction htrees generalizing xs with
  | nil => exact .nil
  | @cons v y vs ys hv _ ih =>
    cases xs with
    | nil => cases heq
    | cons x xs =>
      rw [List.map_cons, List.map_cons, List.cons.injEq] at heq
      rw [List.forall_mem_cons] at hw
      have hadmits : w.Admits y := by
        rw [Wanted.admits_iff, ← Tree.kind?_unlocated, heq.1, Tree.kind?_unlocated,
          ← Wanted.admits_iff]
        exact hw.1
      exact .cons ⟨hv, hadmits⟩ (ih hw.2 heq.2)

/-- Allowed texts are read from their tokens. -/
theorem textsRead_of_meaning {as : List TextArgument} {texts : List Text}
    (h : List.Forall₂ TextArgument.Allows as texts) :
    ∀ ts : List Token, ts.map Token.meaning = (texts.map Lexeme.text).map some →
      ∃ vs, Spells ts vs ∧ TextsRead as vs texts := by
  induction h with
  | nil =>
    intro ts hts
    rw [List.map_nil, List.map_nil, List.map_eq_nil_iff] at hts
    rw [hts]
    exact ⟨[], .nil, trivial⟩
  | @cons a text as texts ha _ ih =>
    intro ts hts
    rw [List.map_cons, List.map_cons, List.map_eq_cons_iff] at hts
    obtain ⟨t, ts, rfl, ht, hts⟩ := hts
    obtain ⟨vs, hspells, hread⟩ := ih ts hts
    exact ⟨.string t.point t.text :: vs, .string (terminal_of_meaning ht) hspells,
      ⟨⟨t.point, t.text, rfl, decode_of_meaning ht⟩, ha⟩, hread⟩

/-- A node without a form is a literal. -/
theorem exists_literal? {h : Head} (hf : Form.ofKind? h.kind = none) :
    ∃ l, h.literal? = some l := by
  cases h with
  | string | integer | float | undef => exact ⟨_, rfl⟩
  | boolean b => cases b <;> exact ⟨_, rfl⟩
  | _ => cases hf

/-- A literal is read from its token. -/
theorem writes_literal {h : Head} {loc : Location} {l : Lexeme} (hl : h.literal? = some l)
    {t : Token} (ht : t.meaning = some l) : Writes [t] [.node h loc []] := by
  have hterminal := terminal_of_meaning ht
  have hwrites : ∀ v, Spells [t] [v] → v.tree = .ok (literal t.point h) →
      Writes [t] [.node h loc []] := by
    intro v hspells htree
    exact ⟨[v], [literal t.point h], hspells, .cons htree .nil, rfl⟩
  cases h with
  | string x =>
    cases hl
    refine hwrites _ (.string hterminal .nil) ?_
    exact tree_string_eq_ok_iff.mpr ⟨x, decode_of_meaning ht, rfl⟩
  | integer n =>
    cases hl
    obtain ⟨hf, hn⟩ := integer_of_meaning ht
    refine hwrites _ (.number hterminal .nil) ?_
    exact tree_number_eq_ok_iff.mpr (.inr ⟨hf, n, hn, rfl⟩)
  | float x =>
    cases hl
    obtain ⟨hf, rfl⟩ := float_of_meaning ht
    refine hwrites _ (.number hterminal .nil) ?_
    exact tree_number_eq_ok_iff.mpr (.inl ⟨hf, rfl⟩)
  | boolean b =>
    cases b with
    | true =>
      cases hl
      exact hwrites _ (@Spells.constant t .yes _ _ hterminal .nil) (tree_constant _ _)
    | false =>
      cases hl
      exact hwrites _ (@Spells.constant t .no _ _ hterminal .nil) (tree_constant _ _)
  | undef =>
    cases hl
    exact hwrites _ (@Spells.constant t .nil _ _ hterminal .nil) (tree_constant _ _)
  | _ => cases hl

/-! ## 4. Forms -/

/-- Padding goes by the kinds of trees alone. -/
theorem padded_of_unlocated {r : Rest} {more more' tail : List Tree}
    (h : more'.map Tree.unlocated = more.map Tree.unlocated) (htail : r.padded more = some tail) :
    ∃ tail', r.padded more' = some tail' ∧
      tail'.map Tree.unlocated = tail.map Tree.unlocated := by
  have hkinds : more'.map Tree.kind? = more.map Tree.kind? := by
    have hcomp : ∀ ts : List Tree, ts.map Tree.kind? = (ts.map Tree.unlocated).map Tree.kind? := by
      intro ts
      simp [Function.comp_def]
    rw [hcomp more', h, ← hcomp more]
  obtain ⟨before, after, hpadding⟩ := Rest.exists_padding htail
  obtain rfl := Option.some.inj (htail.symm.trans (hpadding more rfl))
  refine ⟨_, hpadding more' hkinds, ?_⟩
  simp only [List.map_append, h]

/-- The list of a form is read from its tokens. -/
theorem listRead_of_meaning {f : Form} {items first more : List Tree}
    (hdivides : f.Divides items first more)
    (hwrites : ∀ ts : List Token, ts.map Token.meaning = (items.flatMap Tree.lexemes).map some →
      Writes ts items)
    {ts : List Token}
    (hts : ts.map Token.meaning = (f.bracketed (items.flatMap Tree.lexemes)).map some) :
    ∃ vs ys, Spells ts vs ∧ ListRead f.list vs ys ∧
      ys.map Tree.unlocated = items.map Tree.unlocated := by
  unfold Form.bracketed at hts
  cases hl : f.list with
  | none =>
    rw [hl, Option.toList_none, List.flatMap_nil, List.map_nil, List.map_eq_nil_iff] at hts
    rw [hts, hdivides.items_eq_nil hl]
    exact ⟨[], [], .nil, trivial, rfl⟩
  | some a =>
    rw [hl, Option.toList_some, List.flatMap_singleton, List.map_cons, List.map_eq_cons_iff] at hts
    obtain ⟨l, ts, rfl, hleft, hts⟩ := hts
    rw [List.map_append, List.map_eq_append_iff] at hts
    obtain ⟨inner, ts, rfl, hinner, hts⟩ := hts
    rw [List.map_cons, List.map_nil, List.map_eq_singleton_iff] at hts
    obtain ⟨r, rfl, hright⟩ := hts
    have hadmits : ∀ x ∈ items, a.item.Admits x := by
      intro x hx
      obtain ⟨-, a', ha, hx⟩ := hdivides.items x hx
      rw [hl] at ha
      cases ha
      exact hx
    obtain ⟨us, ys, hspells, hreads, heq⟩ := reads_of_writes (hwrites inner hinner) hadmits
    have hlist := Spells.list (terminal_of_meaning hleft) (terminal_of_meaning hright) hspells .nil
    exact ⟨_, ys, hlist, ⟨l.point, us, rfl, hreads⟩, heq⟩

/-- The arguments of a form are read from their tokens, row by row, if its parts are. -/
theorem reads_of_meaning {f : Form} {texts : List Text} {items first more : List Tree}
    (htexts : List.Forall₂ TextArgument.Allows f.texts texts)
    (hdivides : f.Divides items first more)
    (hparts : ∀ x ∈ items ++ first ++ more, ∀ ts : List Token,
      ts.map Token.meaning = x.lexemes.map some → Writes ts [x])
    {ts : List Token}
    (hts : ts.map Token.meaning = (texts.map Lexeme.text ++
      (f.bracketed (items.flatMap Tree.lexemes) ++
        (first.flatMap Tree.lexemes ++ more.flatMap Tree.lexemes))).map some) :
    ∃ vs items' first' more', Spells ts vs ∧ f.Reads vs texts items' first' more' ∧
      items'.map Tree.unlocated = items.map Tree.unlocated ∧
      first'.map Tree.unlocated = first.map Tree.unlocated ∧
      more'.map Tree.unlocated = more.map Tree.unlocated := by
  simp only [List.mem_append] at hparts
  have hitems := @writes_of_forall items fun x hx => hparts x (by simp [hx])
  have hfirst := @writes_of_forall first fun x hx => hparts x (by simp [hx])
  have hmore := @writes_of_forall more fun x hx => hparts x (by simp [hx])
  -- the tokens, row by row
  simp only [List.map_append, List.map_eq_append_iff] at hts
  obtain ⟨tts, _, rfl, htts, its, _, rfl, hits, fts, mts, rfl, hfts, hmts⟩ := hts
  -- the values that they spell
  obtain ⟨tv, htv, htexts⟩ := textsRead_of_meaning htexts tts htts
  obtain ⟨lv, items', hlv, hlist, hitems'⟩ := listRead_of_meaning hdivides hitems hits
  obtain ⟨fv, first', hfv, hfirstReads, hfirst'⟩ := reads_of_writes
    (hfirst fts hfts) (w := .any) fun _ _ => trivial
  obtain ⟨mv, more', hmv, hmoreReads, hmore'⟩ := reads_of_writes
    (hmore mts hmts) fun x hx => (hdivides.more x hx).2
  have hcount : fv.length = f.expressions := by
    rw [hfirstReads.length_eq, ← hdivides.count]
    simpa using congrArg List.length hfirst'
  have hroom : f.rest.Room mv.length := by
    have hlen : mv.length = more.length := by
      rw [hmoreReads.length_eq]
      simpa using congrArg List.length hmore'
    rw [hlen]
    exact hdivides.room
  refine ⟨_, items', first', more', ?_,
    .rows htexts hlist hcount hfirstReads hroom hmoreReads, hitems', hfirst', hmore'⟩
  simpa using htv.append (hlv.append (hfv.append hmv))

/-- A form is read from its tokens if its parts are. -/
theorem writes_form {h : Head} {f : Form} (hf : Form.ofKind? h.kind = some f) (hworded : h.Worded)
    {items first more tail : List Tree} (hdivides : f.Divides items first more)
    (htail : f.rest.padded more = some tail)
    (hparts : ∀ x ∈ items ++ first ++ more, ∀ ts : List Token,
      ts.map Token.meaning = x.lexemes.map some → Writes ts [x])
    {loc : Location} {ts : List Token}
    (hts : ts.map Token.meaning =
      (Tree.node h loc (items ++ first ++ tail)).lexemes.map some) :
    Writes ts [.node h loc (items ++ first ++ tail)] := by
  rw [Tree.lexemes, Tree.lexemesOfParts_eq_map, Head.lexemes, hf] at hts
  dsimp only at hts
  rw [spread_eq hf hdivides htail, ← List.append_assoc, List.map_cons, List.map_eq_cons_iff] at hts
  obtain ⟨l, _, rfl, hl, hts⟩ := hts
  rw [List.map_cons, List.map_eq_cons_iff] at hts
  obtain ⟨w, _, rfl, hw, hts⟩ := hts
  rw [List.map_append, List.map_eq_append_iff] at hts
  obtain ⟨inner, _, rfl, hinner, hts⟩ := hts
  rw [List.map_cons, List.map_nil, List.map_eq_singleton_iff] at hts
  obtain ⟨r, rfl, hr⟩ := hts
  obtain ⟨vs, items', first', more', hspells, hreads, hitems', hfirst', hmore'⟩ :=
    reads_of_meaning ((worded_iff_allows hf).mp hworded) hdivides hparts hinner
  obtain ⟨tail', htail', heq⟩ := padded_of_unlocated hmore' htail
  have hform := Spells.form (terminal_of_meaning hl) (terminal_of_meaning hw)
    (terminal_of_meaning hr) hspells .nil
  have htree : (Value.form l.point w.text vs).tree =
      .ok (.node h l.point.location (items' ++ first' ++ tail')) :=
    tree_form_eq_ok_iff.mpr ⟨h, f, items', first', more', tail', hf, (text_of_meaning hw).symm,
      hreads, htail', rfl⟩
  refine ⟨_, _, hform, .cons htree .nil, ?_⟩
  simp [Tree.unlocated, Tree.unlocatedAll_eq_map, hitems', hfirst', heq]

/-! ## 5. The round trip -/

/-- Tokens that mean the lexemes of a typed tree spell a value that denotes it. -/
theorem writes_of_meaning (t : Tree) : t.isNode = true →
    (∀ u ∈ t.nodes, u.Typed ∧ ¬ u.Ambiguous) →
    ∀ ts : List Token, ts.map Token.meaning = t.lexemes.map some → Writes ts [t] := by
  induction t using Tree.parts_induction with
  | foreign x =>
    intro hnode
    cases hnode
  | node h loc ps ih =>
    intro _ htyped ts hts
    rw [Tree.forall_nodes_node_iff] at htyped
    obtain ⟨⟨⟨hworded, hfills⟩, hunambiguous⟩, hparts⟩ := htyped
    cases hf : Form.ofKind? h.kind with
    | none =>
      rw [slots_of_ofKind?_none hf, fills_nil_iff] at hfills
      subst hfills
      rw [Tree.lexemes, Head.lexemes, hf] at hts
      obtain ⟨l, hl⟩ := exists_literal? hf
      simp only [hl, Option.toList_some, List.map_cons, List.map_nil,
        List.map_eq_singleton_iff] at hts
      obtain ⟨t, rfl, ht⟩ := hts
      exact writes_literal hl ht
    | some f =>
      obtain ⟨items, first, more, tail, rfl, hdivides, htail⟩ :=
        (fills_slots_iff hf).mp ⟨hfills, hunambiguous⟩
      have hwrites : ∀ x, x ∈ items ++ first ++ tail → x.isNode = true →
          ∀ ts : List Token, ts.map Token.meaning = x.lexemes.map some → Writes ts [x] := by
        intro x hx hnode
        exact ih x hx hnode (hparts x hx)
      refine writes_form hf hworded hdivides htail ?_ hts
      intro x hx
      simp only [List.mem_append] at hx hwrites
      rcases hx with (hx | hx) | hx
      · exact hwrites x (by simp [hx]) (hdivides.items x hx).1
      · exact hwrites x (by simp [hx]) (hdivides.first x hx)
      · exact hwrites x (by simp [Rest.mem_padded htail hx]) (hdivides.more x hx).1

/-- A denotable tree is read back from its spelling, but for its locations. -/
theorem read_spelling {t : Tree} (h : t.Denotable) :
    ∃ t', read t.spelling = .ok t' ∧ t'.unlocated = t.unlocated := by
  have hspellable := spellable_of_mem_lexemes t h.exact
  obtain ⟨ts, hscan, hmeaning⟩ := scanFrom_spellings hspellable .start
  have htyped : ∀ u ∈ t.nodes, u.Typed ∧ ¬ u.Ambiguous := by
    intro u hu
    exact ⟨h.wellTyped.2 u hu, h.unambiguous u hu⟩
  obtain ⟨vs, ys, hspells, htrees, heq⟩ :=
    writes_of_meaning t h.wellTyped.1 htyped ts hmeaning
  have hlen : ys.length = 1 := by simpa using congrArg List.length heq
  obtain ⟨y, rfl⟩ := List.length_eq_one_iff.mp hlen
  match vs, htrees with
  | [v], .cons htree .nil =>
    have hscan : scan t.spelling = ⟨ts, none⟩ := hscan
    have hparse : parse t.spelling = .ok v := by
      rw [parse_eq_ok_iff, hscan]
      exact ⟨rfl, hspells⟩
    exact ⟨y, read_eq_ok_iff.mpr ⟨v, hparse, htree⟩, (List.cons.inj heq).1⟩

/-- An attribute named by a quote, with a negative number for its value. -/
theorem read_spelling_attr : ∃ t',
    read (Tree.node (.attr [0x22] (Text.ofString "=>")) .unknown
      [.node (.integer (-7)) .unknown []]).spelling = .ok t' ∧
    t'.unlocated = .node (.attr [0x22] (Text.ofString "=>")) .unknown
      [.node (.integer (-7)) .unknown []] := by
  have hattr : (Tree.node (.attr [0x22] (Text.ofString "=>")) .unknown
      [.node (.integer (-7)) .unknown []]).Typed :=
    ⟨.inl rfl, .single rfl (.inr ⟨rfl, fun _ hk => by cases hk⟩) .nil⟩
  have hinteger : (Tree.node (.integer (-7)) .unknown []).Typed := ⟨trivial, .nil⟩
  have hdigits : 7 < 10 ^ Numeral.digitLimit := by
    have hten : 10 ^ 1 ≤ 10 ^ Numeral.digitLimit := Nat.pow_le_pow_right (by decide) (by decide)
    omega
  refine read_spelling ⟨⟨rfl, ?_⟩, ?_, ?_⟩
  · simp [Tree.forall_nodes_node_iff, hattr, hinteger]
  · simp [Tree.forall_nodes_node_iff, Tree.Ambiguous, Kind.Ambiguous, Head.kind]
  · simp [Tree.forall_nodes_node_iff, Head.Exact, hdigits]

end PN

end ManifestLint
