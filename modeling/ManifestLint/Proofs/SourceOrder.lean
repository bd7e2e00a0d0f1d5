/-
ManifestLint.Proofs.SourceOrder — pre-order is the order of the source text.

A node is what some value of the text denotes, and has the place of the first token of that
value. The values of a text, each before the ones inside of it, are in the order of their first
tokens; and though forms examine their arguments in orders of their own, the nodes of a tree
in pre-order are some of the values in that order.

The main statements: the places of values are among those of their tokens, in the same order
(`places_sublist_of_spells`), the places of nodes among those of values (`inOrder_of_tree`), and
each node has a text of its own (`exists_ownText`); so a tree that is read is written in order
(`writtenInOrder_of_read`).
-/
import ManifestLint.Proofs.Pass
import ManifestLint.Proofs.Placement
import ManifestLint.Proofs.RoundTrip

namespace ManifestLint

/-- Both locations are places in a text, the first one before the second. -/
def Location.Precedes : Location → Location → Prop
  | .point (some l) (some c), .point (some l') (some c') => l < l' ∨ l = l' ∧ c < c'
  | _, _ => False

theorem Location.ne_of_precedes {a b : Location} (h : a.Precedes b) : a ≠ b := by
  rintro rfl
  unfold Precedes at h
  split at h
  · simp_all
  · exact h

namespace PN

theorem Point.precedes_location {p q : Point} (h : p.Before q) :
    p.location.Precedes q.location := by
  simp only [Before, location, Location.Precedes] at h ⊢
  omega

theorem innerOfAll_append (vs ws : List Value) :
    innerOfAll (vs ++ ws) = innerOfAll vs ++ innerOfAll ws := by
  induction vs with
  | nil => rfl
  | cons v vs ih => simp [innerOfAll, ih]

theorem innerOfAll_singleton (v : Value) : innerOfAll [v] = v.subvalues := by
  simp [innerOfAll, Value.subvalues]

/-! ## 1. The tokens of a value -/

/-- Among the tokens is a stretch that spells the value, and its first token stands where the value
starts. -/
def Holds (ts : List Token) (w : Value) : Prop :=
  ∃ before k own after, ts = before ++ (k :: own) ++ after ∧ Spells (k :: own) [w] ∧
    k.point = w.point

theorem Holds.between {ts : List Token} {w : Value} (h : Holds ts w) (before after : List Token) :
    Holds (before ++ ts ++ after) w := by
  obtain ⟨us, k, own, us', rfl, others⟩ := h
  exact ⟨before ++ us, k, own, us' ++ after, by simp, others⟩

/-- The tokens of a value and those of the values after it hold all that is inside of these. -/
theorem holds_cons {k : Token} {own ts : List Token} {v : Value} {vs : List Value}
    (hv : Spells (k :: own) [v]) (hpoint : k.point = v.point)
    (hinner : ∀ w ∈ v.inner, Holds (k :: own) w) (hvs : ∀ w ∈ innerOfAll vs, Holds ts w) :
    ∀ w ∈ innerOfAll (v :: vs), Holds ((k :: own) ++ ts) w := by
  simp only [innerOfAll, List.forall_mem_cons, List.forall_mem_append]
  refine ⟨⟨[], k, own, ts, rfl, hv, hpoint⟩, ?_, ?_⟩
  · intro w hw
    exact (hinner w hw).between [] ts
  · intro w hw
    simpa using (hvs w hw).between (k :: own) []

/-- The tokens that spell values hold every value inside of these. -/
theorem holds_of_spells {ts : List Token} {vs : List Value} (h : Spells ts vs) :
    ∀ w ∈ innerOfAll vs, Holds ts w := by
  induction h with
  | nil => simp [innerOfAll]
  | string ht _ ih => exact holds_cons (.string ht .nil) rfl (by simp [Value.inner]) ih
  | number ht _ ih => exact holds_cons (.number ht .nil) rfl (by simp [Value.inner]) ih
  | constant ht _ ih => exact holds_cons (.constant ht .nil) rfl (by simp [Value.inner]) ih
  | @form l s r inner ts arguments vs hl hs hr body _ ihb ih =>
    have hinner : ∀ w ∈ innerOfAll arguments, Holds (l :: s :: (inner ++ [r])) w := by
      intro w hw
      exact (ihb w hw).between [l, s] [r]
    simpa using holds_cons (.form hl hs hr body .nil) rfl hinner ih
  | @list l r inner ts items vs hl hr body _ ihb ih =>
    have hinner : ∀ w ∈ innerOfAll items, Holds (l :: (inner ++ [r])) w := by
      intro w hw
      exact (ihb w hw).between [l] [r]
    simpa using holds_cons (.list hl hr body .nil) rfl hinner ih

/-- Values, each before those inside of it, stand in the order of their tokens. -/
theorem places_sublist_of_spells {ts : List Token} {vs : List Value} (h : Spells ts vs) :
    ((innerOfAll vs).map Value.point).Sublist (ts.map Token.point) := by
  induction h with
  | nil => exact .slnil
  | string _ _ ih | number _ _ ih | constant _ _ ih => exact ih.cons_cons _
  | form _ _ _ _ _ ihb ih =>
    simp only [innerOfAll, Value.inner, List.map_cons, List.map_append]
    exact ((ihb.append (ih.cons _)).cons _).cons_cons _
  | list _ _ _ _ ihb ih =>
    simp only [innerOfAll, Value.inner, List.map_cons, List.map_append]
    exact (ihb.append (ih.cons _)).cons_cons _

/-! ## 2. The nodes of a value -/

theorem mem_innerOfAll_trans {vs : List Value}
    (h : ∀ v ∈ vs, ∀ u ∈ v.inner, ∀ w ∈ u.subvalues, w ∈ v.inner) :
    ∀ u ∈ innerOfAll vs, ∀ w ∈ u.subvalues, w ∈ innerOfAll vs := by
  intro u hu w hw
  rw [mem_innerOfAll_iff] at hu ⊢
  obtain ⟨v, hv, hu⟩ := hu
  rcases List.mem_cons.mp hu with rfl | hu
  · exact ⟨u, hv, hw⟩
  · exact ⟨v, hv, List.mem_cons_of_mem v (h v hv u hu w hw)⟩

/-- What is inside of an inner value is inside of the value. -/
theorem mem_inner_trans (v : Value) : ∀ u ∈ v.inner, ∀ w ∈ u.subvalues, w ∈ v.inner := by
  induction v using nested_induction with | step v ih
  cases v with
  | string | number | constant => simp [Value.inner]
  | form p word vs =>
    rw [Value.inner]
    exact mem_innerOfAll_trans fun v hv => ih v (mem_inner_form hv (self_mem_subvalues v))
  | list p vs =>
    rw [Value.inner]
    exact mem_innerOfAll_trans fun v hv => ih v (mem_inner_list hv (self_mem_subvalues v))

/-- A value denotes a node that stands where the value starts. The node has parts only if the value
is a form: those that the rows of the form give. -/
theorem node_of_tree {v : Value} {t : Tree} (h : v.tree = .ok t) :
    ∃ head, t = .node head v.point.location [] ∨
      ∃ p word vs f texts items first more tail, v = .form p word vs ∧
        Form.Reads f vs texts items first more ∧ f.rest.padded more = some tail ∧
        t = .node head v.point.location (items ++ first ++ tail) := by
  cases v with
  | string p token =>
    obtain ⟨x, -, rfl⟩ := tree_string_eq_ok_iff.mp h
    exact ⟨_, .inl rfl⟩
  | number p token =>
    rcases tree_number_eq_ok_iff.mp h with ⟨-, rfl⟩ | ⟨-, n, -, rfl⟩
    · exact ⟨_, .inl rfl⟩
    · exact ⟨_, .inl rfl⟩
  | constant p word =>
    obtain rfl := tree_constant_eq_ok_iff.mp h
    exact ⟨_, .inl rfl⟩
  | list p items => exact absurd h tree_list_ne_ok
  | form p word vs =>
    obtain ⟨head, f, items, first, more, tail, -, -, hreads, htail, rfl⟩ :=
      tree_form_eq_ok_iff.mp h
    exact ⟨head, .inr ⟨p, word, vs, f, _, items, first, more, tail, rfl, hreads, htail, rfl⟩⟩

theorem location_of_tree {v : Value} {t : Tree} (h : v.tree = .ok t) :
    t.location = v.point.location := by
  obtain ⟨head, rfl | ⟨p, word, vs, f, texts, items, first, more, tail, -, -, -, rfl⟩⟩ :=
    node_of_tree h
  · rfl
  · rfl

/-- Every node of a tree is denoted by a value inside of the one that denotes the tree. -/
theorem denoted_of_mem_nodes (v : Value) :
    ∀ t, v.tree = .ok t → ∀ u ∈ t.nodes, ∃ w ∈ v.subvalues, w.tree = .ok u := by
  induction v using nested_induction with | step v ih
  intro t ht
  obtain ⟨head, rfl | ⟨p, word, vs, f, texts, items, first, more, tail, rfl, hreads, htail, rfl⟩⟩ :=
    node_of_tree ht
  · rw [Tree.forall_nodes_node_iff]
    exact ⟨⟨v, self_mem_subvalues v, ht⟩, by simp⟩
  · rw [Tree.forall_nodes_node_iff]
    refine ⟨⟨_, self_mem_subvalues _, ht⟩, ?_⟩
    intro part hpart u hu
    have hdenoted : part = Tree.absent ∨
        ∃ w ∈ (Value.form p word vs).inner, w.tree = .ok part :=
      denoted_of_mem_parts hreads htail hpart
    rcases hdenoted with rfl | ⟨w, hw, htree⟩
    · simp [Tree.absent] at hu
    · obtain ⟨x, hx, hdenotes⟩ := ih w hw part htree u hu
      exact ⟨x, List.mem_cons_of_mem _ (mem_inner_trans _ w hw x hx), hdenotes⟩

/-! ## 3. Nodes in the order of values -/

/-- The places of the nodes of trees, in pre-order, are some of the places of the values, each
before those inside of it. -/
def InOrder (ts : List Tree) (vs : List Value) : Prop :=
  ((ts.flatMap Tree.nodes).map Tree.location).Sublist
    ((innerOfAll vs).map fun v => v.point.location)

theorem InOrder.append {ts us : List Tree} {vs ws : List Value} (h : InOrder ts vs)
    (h' : InOrder us ws) : InOrder (ts ++ us) (vs ++ ws) := by
  unfold InOrder
  rw [List.flatMap_append, innerOfAll_append, List.map_append, List.map_append]
  exact List.Sublist.append h h'

/-- Values that give no nodes change nothing. -/
theorem inOrder_nil (vs : List Value) : InOrder [] vs := List.nil_sublist _

/-- Wanted trees are in order as soon as each of them is. -/
theorem inOrder_of_reads {w : Wanted} {vs : List Value} {ts : List Tree}
    (h : List.Forall₂ w.Reads vs ts) (ih : ∀ v ∈ vs, ∀ t, v.tree = .ok t → InOrder [t] [v]) :
    InOrder ts vs := by
  induction h with
  | nil => exact inOrder_nil []
  | @cons v t vs ts hv _ ihs =>
    rw [List.forall_mem_cons] at ih
    exact (ih.1 t hv.1).append (ihs ih.2)

/-- The items of a list are in order as soon as each of them is. -/
theorem inOrder_of_listRead {o : Option ListArgument} {vs : List Value} {ts : List Tree}
    (h : ListRead o vs ts)
    (ih : ∀ v ∈ vs, ∀ u ∈ v.inner, ∀ t, u.tree = .ok t → InOrder [t] [u]) : InOrder ts vs := by
  match o, vs, ts, h with
  | none, [], [], _ => exact inOrder_nil []
  | some a, [_], ts, ⟨p, us, rfl, hus⟩ =>
    have hinner := ih _ List.mem_cons_self
    have hitems := inOrder_of_reads hus fun u hu =>
      hinner u (mem_inner_list hu (self_mem_subvalues u))
    rw [InOrder, innerOfAll_singleton, Value.subvalues, Value.inner, List.map_cons]
    exact hitems.cons _

/-- The nodes of a tree are in the order of the values inside of the one that denotes it. -/
theorem inOrder_of_tree (v : Value) : ∀ t, v.tree = .ok t → InOrder [t] [v] := by
  induction v using nested_induction with | step v ih
  intro t ht
  obtain ⟨head, rfl | ⟨p, word, vs, f, texts, items, first, more, tail, rfl, hreads, htail, rfl⟩⟩ :=
    node_of_tree ht
  · rw [InOrder, List.flatMap_singleton, Tree.nodes_node, innerOfAll_singleton]
    exact (List.nil_sublist _).cons_cons _
  · have harg : ∀ v ∈ vs, ∀ t, v.tree = .ok t → InOrder [t] [v] := by
      intro v hv
      exact ih v (mem_inner_form hv (self_mem_subvalues v))
    have hinner : ∀ v ∈ vs, ∀ u ∈ v.inner, ∀ t, u.tree = .ok t → InOrder [t] [u] := by
      intro v hv u hu
      exact ih u (mem_inner_form hv (List.mem_cons_of_mem v hu))
    -- row by row: what is padded adds no nodes
    have hparts : InOrder (items ++ first ++ tail) vs := by
      have hpadded : tail.flatMap Tree.nodes = more.flatMap Tree.nodes :=
        Rest.flatMap_of_padded rfl htail
      have hrows : InOrder (items ++ first ++ more) vs := by
        obtain ⟨-, hlist, -, hfirst, -, hmore⟩ := hreads
        simp only [List.mem_append] at harg hinner
        have hlist' := inOrder_of_listRead hlist fun v hv => hinner v (by simp [hv])
        have hfirst' := inOrder_of_reads hfirst fun v hv => harg v (by simp [hv])
        have hmore' := inOrder_of_reads hmore fun v hv => harg v (by simp [hv])
        simpa using ((inOrder_nil _).append hlist').append (hfirst'.append hmore')
      rw [InOrder, List.flatMap_append] at hrows ⊢
      rwa [hpadded]
    rw [InOrder, List.flatMap_singleton, Tree.nodes_node, innerOfAll_singleton]
    exact hparts.cons_cons _

/-! ## 4. The text of a node -/

/-- A text that is the node's own: a parenthesis opens it or it is a single token, and read by
itself it is the node again, locations aside. -/
structure OwnText (own : List Char) (u : Tree) : Prop where
  opens : own.head? = some '(' ∨ ∃ k, scan own = ⟨[k], none⟩ ∧ k.text = own
  denotes : ∃ u', read own = .ok u' ∧ u'.unlocated = u.unlocated

/-- No word is taken for a parenthesis. -/
theorem wordTerminal_ne_leftParen (word : List Char) : wordTerminal word ≠ .leftParen := by
  unfold wordTerminal
  split_ifs <;> simp

/-- Only an opening parenthesis is a piece of this terminal. -/
theorem eq_of_piece_leftParen {c : Char} {cs : List Char} {n : Nat}
    (h : piece c cs = some (some .leftParen, n)) : c = '(' := by
  by_cases hc : c ∈ marks
  · simp only [marks, List.mem_cons, List.not_mem_nil, or_false] at hc
    rcases hc with rfl | rfl | rfl | rfl | rfl | rfl | rfl | rfl | rfl | rfl | rfl
    all_goals first | rfl | simp [piece, isBlank] at h
  · rw [piece_of_not_mem_marks hc] at h
    split at h
    · simp only [Option.some.injEq, Prod.mk.injEq] at h
      exact absurd h.1 (wordTerminal_ne_leftParen _)
    · obtain ⟨m, -, heq⟩ := Option.map_eq_some_iff.mp h
      cases heq

/-- Tokens that spell an expression are one token, or start with a parenthesis. -/
theorem opens_of_spells {k : Token} {own : List Token} {w : Value} (h : Spells (k :: own) [w])
    (hw : w.IsExpression) : own = [] ∨ k.terminal = .leftParen := by
  cases h with
  | string _ rest | number _ rest | constant _ rest => exact .inl rest.eq_nil
  | form hl _ _ _ _ => exact .inr hl
  | list _ _ _ _ => exact absurd rfl (hw _ _)

/-- Where a token stands does not matter to what it means. -/
theorem map_meaning_of_unplaced {ts us : List Token}
    (h : ts.map Token.unplaced = us.map Token.unplaced) :
    ts.map Token.meaning = us.map Token.meaning := by
  have hcomp : ∀ ts : List Token,
      ts.map Token.meaning = (ts.map Token.unplaced).map Token.meaning := by
    intro ts
    rw [List.map_map]
    rfl
  rw [hcomp ts, h, ← hcomp us]

/-- A text whose tokens mean the lexemes of a tree that some value denotes is read as that tree. -/
theorem read_of_meaning {source : List Char} {ts : List Token} {w : Value} {u : Tree}
    (hscan : scan source = ⟨ts, none⟩) (hw : w.tree = .ok u)
    (hts : ts.map Token.meaning = u.lexemes.map some) :
    ∃ u', read source = .ok u' ∧ u'.unlocated = u.unlocated := by
  obtain ⟨vs, ys, hspells, htrees, heq⟩ :=
    writes_of_meaning u (kind?_of_tree hw).1 (typed_of_tree w u hw) ts hts
  have hlen : ys.length = 1 := by simpa using congrArg List.length heq
  obtain ⟨y, rfl⟩ := List.length_eq_one_iff.mp hlen
  match vs, htrees with
  | [v], .cons hy .nil =>
    have hparse : parse source = .ok v := by
      rw [parse_eq_ok_iff, hscan]
      exact ⟨rfl, hspells⟩
    exact ⟨y, read_eq_ok_iff.mpr ⟨v, hparse, hy⟩, (List.cons.inj heq).1⟩

/-- A node has a text of its own, and is located at the first character of it. -/
theorem exists_ownText {source : List Char} {v w : Value} {u : Tree} (hv : parse source = .ok v)
    (hw : w ∈ v.subvalues) (hu : w.tree = .ok u) :
    ∃ before own after, source = before ++ own ++ after ∧ OwnText own u ∧
      u.location = (placeAfter before).location := by
  obtain ⟨hstuck, hspells⟩ := parse_eq_ok_iff.mp hv
  rw [← innerOfAll_singleton] at hw
  obtain ⟨ts, k, own, us, htokens, hown, hpoint⟩ := holds_of_spells hspells w hw
  have hscan : scanFrom .start source = ⟨ts ++ (k :: own) ++ us, none⟩ := by
    rw [← htokens, ← hstuck]
    rfl
  obtain ⟨before, mid, after, hsource, hplace, hnil, hself⟩ := exists_stretch hscan
  obtain ⟨ts', hscan', hmap⟩ := hself .start
  refine ⟨before, k.text ++ mid, after, hsource, ⟨?_, ?_⟩, ?_⟩
  · rcases opens_of_spells hown (isExpression_of_tree hu) with rfl | hk
    · rw [hnil rfl, List.append_nil] at hscan' ⊢
      rw [List.map_singleton, List.map_eq_singleton_iff] at hmap
      obtain ⟨k', rfl, hk'⟩ := hmap
      have htext : k'.unplaced.text = k.unplaced.text := congrArg Token.text hk'
      exact .inr ⟨k', hscan', htext⟩
    · rw [List.append_assoc, List.cons_append] at hscan
      obtain ⟨_, c, rest, n, -, -, htext, hpiece, -⟩ := scanFrom_eq_append hscan
      rw [hk] at hpiece
      rw [htext, eq_of_piece_leftParen hpiece]
      exact .inl rfl
  · refine read_of_meaning hscan' hu ?_
    rw [map_meaning_of_unplaced hmap, map_meaning_of_spells hown, List.flatMap_singleton,
      lexemes_of_tree w u hu]
  · rw [location_of_tree hu, ← hpoint, hplace, Point.afterAll_start]

/-! ## 5. Trees that are read -/

/-- The tree is written in the text, its nodes in pre-order: each is located at the first character
of its own text, and so the locations increase and tell the nodes apart; a pass goes through the
nodes as they are written. -/
structure WrittenInOrder (source : List Char) (t : Tree) : Prop where
  placed : ∀ u ∈ t.nodes, ∃ before own after, source = before ++ own ++ after ∧ OwnText own u ∧
    u.location = (placeAfter before).location
  increasing : (t.nodes.map Tree.location).Pairwise Location.Precedes
  distinct : (t.nodes.map Tree.location).Nodup
  dispatched : ∀ c : Checker, ∃ vs : List Visit, (vs.map fun v => v.node.tree) = t.nodes ∧
    (vs.Pairwise fun v w => v.node.tree.location.Precedes w.node.tree.location) ∧
    c.validate t =
      (Walk.foldVisits (Checker.step c.mode) vs (.empty (.forStrictness c.strictness) c.file)).map
        fun s => { c with path := [], sink := s }

/-- A tree that is read is written in order. -/
theorem writtenInOrder_of_read {source : List Char} {t : Tree} (h : read source = .ok t) :
    WrittenInOrder source t := by
  obtain ⟨v, hv, ht⟩ := read_eq_ok_iff.mp h
  have hincreasing : (t.nodes.map Tree.location).Pairwise Location.Precedes := by
    have hspells := (parse_eq_ok_iff.mp hv).2
    have htokens := pairwise_scanFrom .start source
    have hvalues : ((innerOfAll [v]).map Value.point).Pairwise Point.Before :=
      (List.pairwise_map.mpr htokens).sublist (places_sublist_of_spells hspells)
    have hplaces : ((innerOfAll [v]).map fun v => v.point.location).Pairwise Location.Precedes := by
      rw [List.pairwise_map] at hvalues ⊢
      exact hvalues.imp Point.precedes_location
    have hnodes := hplaces.sublist (inOrder_of_tree v t ht)
    rwa [List.flatMap_singleton] at hnodes
  constructor
  case placed =>
    intro u hu
    obtain ⟨w, hw, hdenotes⟩ := denoted_of_mem_nodes v t ht u hu
    exact exists_ownText hv hw hdenotes
  case increasing => exact hincreasing
  case distinct => exact hincreasing.imp Location.ne_of_precedes
  case dispatched =>
    intro c
    rw [Tree.nodes, List.map_map] at hincreasing
    exact ⟨t.visits, rfl, List.pairwise_map.mp hincreasing, c.validate_eq t⟩

/-- A tab, a comment, a carriage return and line feeds stand between the nodes. -/
theorem writtenInOrder_array : WrittenInOrder "\t(array ;é\n\r (var\n\"x\") 1)".toList
    (.node .array (.point (some 1) (some 2))
      [.node (.var [0x78]) (.point (some 2) (some 3)) [],
        .node (.integer 1) (.point (some 3) (some 6)) []]) := by
  have h : read "\t(array ;é\n\r (var\n\"x\") 1)".toList =
      .ok (.node .array (.point (some 1) (some 2))
        [.node (.var [0x78]) (.point (some 2) (some 3)) [],
          .node (.integer 1) (.point (some 3) (some 6)) []]) := by cbv
  exact writtenInOrder_of_read h

end PN

end ManifestLint
