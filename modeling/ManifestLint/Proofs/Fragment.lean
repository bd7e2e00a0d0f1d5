/-
ManifestLint.Proofs.Fragment — every node can be cut out of its text and read by itself.

Where a value ends is seen from where it starts by counting brackets, and the scan alone decides
which characters are brackets (`extent`). The tokens of a value close its first bracket with the
last of them and not before (`Closes`), so the stretch that is cut out has just these tokens. They
are where the whole text has them once the points of the stretch are counted on from its first
character (`Point.seenFrom`), and neither the grammar nor reading looks at anything else.

The main statements: the first tokens of a text that close are the tokens of the stretch
(`scanFrom_take_extent`), a text scans alike from any place (`scanFrom_seenFrom`), and so the
stretch of a node is read as the node (`read_firstValue`).
-/
import ManifestLint.Proofs.Relocation
import ManifestLint.Proofs.SourceOrder

namespace ManifestLint

/-! ## 1. Counting on from a place -/

namespace PN

/-- A place of a stretch of text as it is in a text that has the stretch at `origin`: lines go on
from the origin's, and so do columns on its first line. -/
def Point.seenFrom (origin p : Point) : Point :=
  ⟨p.line + (origin.line - 1), if p.line = 1 then p.column + (origin.column - 1) else p.column⟩

end PN

/-- A location in a stretch of text as it is in a text that has the stretch at `origin`. -/
def Location.seenFrom (origin : PN.Point) : Location → Location
  | .point (some line) (some column) =>
    .point (some (line + (origin.line - 1 : Nat)))
      (some (if line = 1 then column + (origin.column - 1 : Nat) else column))
  | l => l

namespace PN

theorem follows_seenFrom (origin : Point) :
    Follows (Location.seenFrom origin) (Point.seenFrom origin) := by
  intro p
  by_cases hline : p.line = 1
  · simp [Point.location, Location.seenFrom, Point.seenFrom, hline]
  · have hcast : ¬ (p.line : Int) = 1 := by omega
    simp [Point.location, Location.seenFrom, Point.seenFrom, hline, hcast]

theorem Point.seenFrom_start {origin : Point} (hline : 1 ≤ origin.line)
    (hcolumn : 1 ≤ origin.column) : origin.seenFrom .start = origin := by
  simp only [seenFrom, start, if_pos]
  rw [Nat.add_sub_cancel' hline, Nat.add_sub_cancel' hcolumn]

theorem Point.one_le_line_after {p : Point} (h : 1 ≤ p.line) (c : Char) : 1 ≤ (p.after c).line := by
  unfold after
  split
  · exact Nat.le_add_left 1 p.line
  · exact h

theorem Point.seenFrom_after (origin : Point) {p : Point} (h : 1 ≤ p.line) (c : Char) :
    origin.seenFrom (p.after c) = (origin.seenFrom p).after c := by
  unfold after
  by_cases hc : c = '\n'
  · have hline : ¬ p.line = 0 := by omega
    simp only [if_pos hc, seenFrom, Nat.add_eq_right, hline, if_false]
    rw [Nat.add_right_comm]
  · simp only [if_neg hc, seenFrom]
    split
    · rw [Nat.add_right_comm]
    · rfl

theorem Point.seenFrom_afterAll (origin : Point) {p : Point} (h : 1 ≤ p.line) (cs : List Char) :
    1 ≤ (p.afterAll cs).line ∧
      origin.seenFrom (p.afterAll cs) = (origin.seenFrom p).afterAll cs := by
  induction cs generalizing p with
  | nil => exact ⟨h, rfl⟩
  | cons c cs ih =>
    rw [afterAll_cons, afterAll_cons, ← seenFrom_after origin h]
    exact ih (one_le_line_after h c)

/-- A text scans from any place to the tokens that it has by itself, counted on from there. -/
theorem scanFrom_seenFrom (origin : Point) {p : Point} (h : 1 ≤ p.line) (cs : List Char) :
    (scanFrom (origin.seenFrom p) cs).tokens =
        (scanFrom p cs).tokens.map (Token.moved origin.seenFrom) ∧
      ((scanFrom (origin.seenFrom p) cs).stuck = none ↔ (scanFrom p cs).stuck = none) := by
  fun_induction scanFrom p cs with
  | case1 p => simp [Scan.done]
  | case2 p c cs hpiece =>
    rw [scanFrom_cons, hpiece]
    simp
  | case3 p c cs x n hpiece ih =>
    obtain ⟨hline, hpoint⟩ := Point.seenFrom_afterAll origin h (c :: cs.take n)
    obtain ⟨htokens, hstuck⟩ := ih hline
    rw [scanFrom_cons, hpiece]
    dsimp only
    rw [← hpoint]
    cases x with
    | none => exact ⟨htokens, hstuck⟩
    | some t =>
      refine ⟨?_, hstuck⟩
      simp only [Scan.cons, List.map_cons, htokens]
      rfl

/-! ## 2. Where a value ends -/

/-- How many brackets are open after a piece, if `depth` are open before it. -/
def depthAfter (depth : Nat) : Option Terminal → Nat
  | some .leftParen | some .leftBracket => depth + 1
  | some .rightParen | some .rightBracket => depth - 1
  | _ => depth

/-- How many characters at the front of a text lead up to where none of the open brackets is open
any more. With no bracket open, these are the first token if it is no bracket, and otherwise all
up to the bracket that closes it. -/
def extent (depth : Nat) : List Char → Nat
  | [] => 0
  | c :: cs =>
    match piece c cs with
    | none => 0
    | some (x, n) =>
      if depthAfter depth x = 0 then n + 1
      else n + 1 + extent (depthAfter depth x) (cs.drop n)
termination_by cs => cs.length
decreasing_by simp only [List.length_cons, List.length_drop]; omega

/-- The value that a text starts with: its first token, or all from its first bracket up to the one
that closes it. -/
def firstValue (cs : List Char) : List Char := cs.take (extent 0 cs)

/-- With the last of these tokens, and not before, no bracket is open any more of `depth` ones. -/
def Closes (depth : Nat) : List Token → Prop
  | [] => False
  | t :: ts =>
    if depthAfter depth (some t.terminal) = 0 then ts = []
    else Closes (depthAfter depth (some t.terminal)) ts

/-- A token after which brackets are still open leaves it to the later ones to close them. -/
theorem closes_cons {depth inner : Nat} {t : Token} {ts : List Token}
    (h : depthAfter depth (some t.terminal) = inner) (hopen : 0 < inner) (hts : Closes inner ts) :
    Closes depth (t :: ts) := by
  rw [Closes, h, if_neg (Nat.ne_of_gt hopen)]
  exact hts

/-- Tokens that spell values leave the brackets around them open. -/
theorem closes_append_of_spells {ts : List Token} {vs : List Value} (h : Spells ts vs) :
    ∀ {depth us}, 0 < depth → Closes depth us → Closes depth (ts ++ us) := by
  induction h with
  | nil => exact fun _ hus => hus
  | string ht rest ih | number ht rest ih =>
    intro depth us hdepth hus
    exact closes_cons (by rw [ht]; rfl) hdepth (ih hdepth hus)
  | @constant t word ts vs ht rest ih =>
    intro depth us hdepth hus
    exact closes_cons (by rw [ht]; cases word <;> rfl) hdepth (ih hdepth hus)
  | form hl hs hr body rest ihbody ih =>
    intro depth us hdepth hus
    have hclose : Closes (depth + 1) _ := closes_cons (by rw [hr]; rfl) hdepth (ih hdepth hus)
    have hinner := ihbody (Nat.succ_pos depth) hclose
    have hword := closes_cons (by rw [hs]; rfl) (Nat.succ_pos depth) hinner
    simpa using closes_cons (by rw [hl]; rfl) (Nat.succ_pos depth) hword
  | list hl hr body rest ihbody ih =>
    intro depth us hdepth hus
    have hclose : Closes (depth + 1) _ := closes_cons (by rw [hr]; rfl) hdepth (ih hdepth hus)
    have hinner := ihbody (Nat.succ_pos depth) hclose
    simpa using closes_cons (by rw [hl]; rfl) (Nat.succ_pos depth) hinner

/-- The tokens of one value close it. -/
theorem closes_of_spells {t : Token} {ts : List Token} {w : Value} (h : Spells (t :: ts) [w]) :
    Closes 0 (t :: ts) := by
  have hsingle : ∀ {ts : List Token}, depthAfter 0 (some t.terminal) = 0 → Spells ts [] →
      Closes 0 (t :: ts) := by
    intro ts hdepth hts
    rw [Closes, if_pos hdepth]
    exact hts.eq_nil
  have hlast : ∀ {r : Token} {rest : List Token}, depthAfter 1 (some r.terminal) = 0 →
      Spells rest [] → Closes 1 (r :: rest) := by
    intro r rest hdepth hrest
    rw [Closes, if_pos hdepth]
    exact hrest.eq_nil
  cases h with
  | string ht rest | number ht rest => exact hsingle (by rw [ht]; rfl) rest
  | @constant _ word _ _ ht rest => exact hsingle (by rw [ht]; cases word <;> rfl) rest
  | form hl hs hr body rest =>
    have hclose := hlast (by rw [hr]; rfl) rest
    have hinner := closes_append_of_spells body Nat.one_pos hclose
    have hword := closes_cons (by rw [hs]; rfl) Nat.one_pos hinner
    exact closes_cons (by rw [hl]; rfl) Nat.one_pos hword
  | list hl hr body rest =>
    have hclose := hlast (by rw [hr]; rfl) rest
    have hinner := closes_append_of_spells body Nat.one_pos hclose
    exact closes_cons (by rw [hl]; rfl) Nat.one_pos hinner

/-- A text up to where its first tokens close scans to just these tokens. If no bracket is open in
front, one of them has to stand there: the stretch could end with a blank otherwise. -/
theorem scanFrom_take_extent {p : Point} {cs : List Char} {depth : Nat} {ts us : List Token}
    {stuck : Option Stuck} (h : scanFrom p cs = ⟨ts ++ us, stuck⟩) (hcloses : Closes depth ts)
    (hfront : depth ≠ 0 ∨ ∃ c rest t n, cs = c :: rest ∧ piece c rest = some (some t, n)) :
    scanFrom p (cs.take (extent depth cs)) = ⟨ts, none⟩ := by
  fun_induction scanFrom p cs generalizing ts depth with
  | case1 p =>
    obtain ⟨rfl, -⟩ : ts = [] ∧ us = [] := by simpa [Scan.done] using (congrArg Scan.tokens h).symm
    cases hcloses
  | case2 p c cs hpiece =>
    obtain ⟨rfl, -⟩ : ts = [] ∧ us = [] := by simpa using (congrArg Scan.tokens h).symm
    cases hcloses
  | case3 p c cs x n hpiece ih =>
    have htake : ∀ m, (c :: cs).take (n + 1 + m) = c :: cs.take n ++ (cs.drop n).take m := by
      intro m
      rw [Nat.add_right_comm, List.take_succ_cons, List.take_add]
      rfl
    have hsplit : ∀ m, cs.drop n = (cs.drop n).take m ++ (cs.drop n).drop m :=
      fun m => (List.take_append_drop m _).symm
    rw [extent, hpiece]
    dsimp only
    cases x with
    | none =>
      have hdepth : depth ≠ 0 := by
        rcases hfront with hdepth | ⟨_, _, _, _, hcons, hpiece'⟩
        · exact hdepth
        · cases hcons
          rw [hpiece] at hpiece'
          cases hpiece'
      have hafter : depthAfter depth none = depth := rfl
      rw [hafter, if_neg hdepth, htake, scanFrom_cut hpiece (hsplit _)]
      exact ih h hcloses (.inl hdepth)
    | some terminal =>
      cases ts with
      | nil => cases hcloses
      | cons t ts =>
        rw [Scan.cons, List.cons_append, Scan.mk.injEq, List.cons.injEq] at h
        obtain ⟨⟨rfl, htokens⟩, hstuck⟩ := h
        rw [Closes] at hcloses
        by_cases hclosed : depthAfter depth (some terminal) = 0
        · rw [if_pos hclosed] at hcloses ⊢
          have hown : cs.drop n = [] ++ cs.drop n := rfl
          have hcut := scanFrom_cut hpiece hown p
          rw [List.append_nil, scanFrom_nil] at hcut
          rw [List.take_succ_cons, hcut, hcloses]
          rfl
        · rw [if_neg hclosed] at hcloses ⊢
          have hlater := @ih _ ts (by rw [← htokens, ← hstuck]) hcloses (.inl hclosed)
          rw [htake, scanFrom_cut hpiece (hsplit _), hlater]
          rfl

/-! ## 3. Nodes -/

theorem Value.moved_id (v : Value) : v.moved id = v := by
  induction v using nested_induction with | step v ih
  cases v with
  | string | number | constant => rfl
  | form p word vs =>
    have hvs : vs.map (Value.moved id) = vs :=
      (List.map_congr_left fun v hv => ih v (mem_inner_form hv (self_mem_subvalues v))).trans
        (List.map_id vs)
    rw [moved, movedAll_eq_map, hvs]
    rfl
  | list p vs =>
    have hvs : vs.map (Value.moved id) = vs :=
      (List.map_congr_left fun v hv => ih v (mem_inner_list hv (self_mem_subvalues v))).trans
        (List.map_id vs)
    rw [moved, movedAll_eq_map, hvs]
    rfl

/-- A value denotes the same tree in a text of its own, but for where this is seen from. -/
theorem read_of_moved_tokens {g : Point → Point} {h : Location → Location} (hg : Follows h g)
    {source : List Char} {ts : List Token} {w : Value} {u : Tree}
    (hstuck : (scan source).stuck = none) (htokens : (scan source).tokens.map (Token.moved g) = ts)
    (hw : Spells ts [w]) (hu : w.tree = .ok u) :
    ∃ u', read source = .ok u' ∧ u'.relocated h = u := by
  have hmap : (scan source).tokens.map (Token.moved g) = ts.map (Token.moved id) := by
    rw [htokens]
    exact (List.map_id ts).symm
  obtain ⟨vs, hvs, hmoved⟩ := spells_of_moved hw hmap
  rw [List.map_singleton, Value.moved_id, List.map_eq_singleton_iff] at hmoved
  obtain ⟨v, rfl, hv⟩ := hmoved
  have htree : (v.moved g).tree = carried g (Tree.relocated h) v.tree := tree_moved hg v
  rw [hv, hu] at htree
  cases hv' : v.tree with
  | error r =>
    rw [hv'] at htree
    cases htree
  | ok u' =>
    rw [hv'] at htree
    exact ⟨u', read_eq_ok_iff.mpr ⟨v, parse_eq_ok_iff.mpr ⟨hstuck, hvs⟩, hv'⟩,
      (Except.ok.inj htree).symm⟩

/-- Different places of a text are different points. -/
theorem append_left_eq_of_placeAfter {before rest before' rest' : List Char}
    (happend : before ++ rest = before' ++ rest') (h : placeAfter before = placeAfter before') :
    before = before' := by
  have hunique : ∀ {a b : List Char}, a <+: b → placeAfter a = placeAfter b → a = b := by
    rintro a _ ⟨x, rfl⟩ hplace
    cases x with
    | nil => rw [List.append_nil]
    | cons c cs =>
      have hbefore := (placeAfter a).before_afterAll (List.cons_ne_nil c cs)
      rw [← Point.afterAll_start a, ← Point.afterAll_append, Point.afterAll_start,
        Point.afterAll_start, hplace] at hbefore
      simp [Point.Before] at hbefore
  rcases List.prefix_or_prefix_of_prefix (List.prefix_append before rest)
    (happend ▸ List.prefix_append before' rest') with hle | hle
  · exact hunique hle h
  · exact (hunique hle h.symm).symm

theorem location_inj {p q : Point} (h : p.location = q.location) : p = q := by
  cases p
  cases q
  simpa [Point.location] using h

theorem one_le_placeAfter (before : List Char) :
    1 ≤ (placeAfter before).line ∧ 1 ≤ (placeAfter before).column :=
  ⟨Nat.le_add_right 1 _, Nat.le_add_right 1 _⟩

/-- Reading is compositional: each node of a tree that is read stands at one place of the text, and
the value that starts there, cut out of the text, is read as the node, with every location counted
on from that place. -/
theorem read_firstValue {source : List Char} {t : Tree} (h : read source = .ok t) :
    ∀ u ∈ t.nodes,
      (∃ before rest, source = before ++ rest ∧ u.location = (placeAfter before).location) ∧
      ∀ before rest, source = before ++ rest → u.location = (placeAfter before).location →
        ∃ u', read (firstValue rest) = .ok u' ∧
          u'.relocated (Location.seenFrom (placeAfter before)) = u := by
  intro u hu
  obtain ⟨v, hv, ht⟩ := read_eq_ok_iff.mp h
  obtain ⟨w, hw, hdenotes⟩ := denoted_of_mem_nodes v t ht u hu
  obtain ⟨hstuck, hspells⟩ := parse_eq_ok_iff.mp hv
  rw [← innerOfAll_singleton] at hw
  obtain ⟨ts, k, own, us, htokens, hown, hpoint⟩ := holds_of_spells hspells w hw
  have hscan : scanFrom .start source = ⟨ts ++ k :: (own ++ us), none⟩ := by
    rw [← hstuck, ← List.cons_append, ← List.append_assoc, ← htokens]
    rfl
  obtain ⟨before, c, rest, n, hsource, hplace, htext, hpiece, hlater⟩ := scanFrom_eq_append hscan
  rw [Point.afterAll_start] at hplace
  have hlocation : u.location = (placeAfter before).location := by
    rw [location_of_tree hdenotes, ← hpoint, hplace]
  refine ⟨⟨before, c :: rest, hsource, hlocation⟩, ?_⟩
  intro before' rest' hsource' hlocation'
  obtain rfl : before = before' :=
    append_left_eq_of_placeAfter (hsource.symm.trans hsource')
      (location_inj (hlocation.symm.trans hlocation'))
  obtain rfl : c :: rest = rest' := List.append_cancel_left (hsource.symm.trans hsource')
  have hself : scanFrom k.point (c :: rest) = ⟨(k :: own) ++ us, none⟩ := by
    rw [scanFrom_cons, hpiece]
    dsimp only
    rw [← htext, hlater]
    rfl
  have hcut := scanFrom_take_extent hself (closes_of_spells hown)
    (.inr ⟨c, rest, k.terminal, n, rfl, hpiece⟩)
  obtain ⟨hline, hcolumn⟩ := one_le_placeAfter before
  obtain ⟨hmoved, hends⟩ := scanFrom_seenFrom (placeAfter before) (Nat.le_refl 1)
    (firstValue (c :: rest)) (p := .start)
  rw [Point.seenFrom_start hline hcolumn, ← hplace, firstValue, hcut] at hmoved hends
  rw [← hplace]
  exact read_of_moved_tokens (follows_seenFrom k.point) (hends.mp rfl) hmoved.symm hown hdenotes

/-- There are brackets in the comment in front of the node and in its string. -/
theorem read_firstValue_array :
    ∃ u', read (firstValue "(var\n\")\") 1)".toList) = .ok u' ∧
      u'.relocated (Location.seenFrom ⟨2, 3⟩) =
        .node (.var [0x29]) (.point (some 2) (some 3)) [] := by
  have h : read "\t(array ;)]\n\r (var\n\")\") 1)".toList =
      .ok (.node .array (.point (some 1) (some 2))
        [.node (.var [0x29]) (.point (some 2) (some 3)) [],
          .node (.integer 1) (.point (some 3) (some 6)) []]) := by cbv
  have hmem : (.node (.var [0x29]) (.point (some 2) (some 3)) [] : Tree) ∈
      (Tree.node .array (.point (some 1) (some 2))
        [.node (.var [0x29]) (.point (some 2) (some 3)) [],
          .node (.integer 1) (.point (some 3) (some 6)) []]).nodes := by
    simp [Tree.nodes_node]
  exact (read_firstValue h _ hmem).2 "\t(array ;)]\n\r ".toList "(var\n\")\") 1)".toList
    (by decide) (by decide)

end PN

end ManifestLint
