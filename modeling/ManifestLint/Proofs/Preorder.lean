/-
ManifestLint.Proofs.Preorder — the visits of a tree, described from the outside.

`Tree.visits` carries positions and parents down a recursion. Here both are read off the
root instead: the parent of a position is what stands one step before it
(`Tree.parentAt`), and the order of the visits is the lexicographic order of positions, in
which a node comes before what is inside of it and a part before the later ones.

The main statements: the positions are exactly the places of nodes
(`mem_positions_iff`), each listed once and in pre-order (`pairwise_positions`); every
visit pairs the node at its position with the direct parent (`visits_eq_map`); and the
nodes of a node are itself and the nodes of its parts (`nodes_node`).
-/
import ManifestLint.Tree.Position

namespace ManifestLint.Tree

/-! ## 1. Parents and visits by position -/

/-- What stands at a position of `t`; nothing where there is no such place. -/
def occurrenceAt (t : Tree) (p : Position) : Occurrence := ⟨p, (t.at? p).getD absent⟩

/-- The direct parent of what stands at a position of `t`; the root has none. -/
def parentAt (t : Tree) (p : Position) : Option Occurrence :=
  if p = [] then none else some (t.occurrenceAt p.dropLast)

/-- What stands at a position of `t` together with its direct parent. -/
def visitAt (t : Tree) (p : Position) : Visit := ⟨t.parentAt p, t.occurrenceAt p⟩

@[simp] theorem parentAt_nil (t : Tree) : t.parentAt [] = none := rfl

@[simp] theorem parentAt_snoc (t : Tree) (p : Position) (i : Nat) :
    t.parentAt (p ++ [i]) = some (t.occurrenceAt p) := by
  simp [parentAt]

theorem occurrenceAt_of_at? {t u : Tree} {p : Position} (h : t.at? p = some u) :
    t.occurrenceAt p = ⟨p, u⟩ := by
  simp [occurrenceAt, h]

/-- A step further from a place leads to a part of what stands there. -/
theorem at?_snoc {t u : Tree} {p : Position} (h : t.at? p = some u) (i : Nat) :
    t.at? (p ++ [i]) = u.parts[i]? := by
  rw [at?_append, h, Option.bind_some, at?_cons]
  simp

/-- What a step further from a place leads to, if to anything, is the part with that number. -/
theorem occurrenceAt_snoc {t u : Tree} {p : Position} (h : t.at? p = some u) (i : Nat) :
    t.occurrenceAt (p ++ [i]) = Occurrence.part ⟨p, u⟩ i := by
  simp [occurrenceAt, at?_snoc h, Occurrence.part, part]

/-- What stands one step further from a place is a part of what stands there. -/
theorem exists_of_at?_snoc {t u : Tree} {p : Position} {i : Nat} (h : t.at? (p ++ [i]) = some u) :
    ∃ v, t.at? p = some v ∧ v.parts[i]? = some u := by
  rw [at?_append, Option.bind_eq_some_iff] at h
  obtain ⟨v, hv, hpart⟩ := h
  exact ⟨v, hv, by simpa [at?_cons] using hpart⟩

/-- The head of the node that stands at a position of `t`, if one does. -/
def headAt? (t : Tree) (p : Position) : Option Head := (t.at? p).bind head?

theorem headAt?_of_at? {t u : Tree} {p : Position} (h : t.at? p = some u) :
    t.headAt? p = u.head? := by
  rw [headAt?, h, Option.bind_some]

/-- Where there is a head, there is a node that has it. -/
theorem headAt?_eq_some_iff {t : Tree} {p : Position} {h : Head} :
    t.headAt? p = some h ↔ ∃ l ps, t.at? p = some (node h l ps) := by
  constructor
  · intro hhead
    obtain ⟨u, hat, hu⟩ := Option.bind_eq_some_iff.mp hhead
    cases u with
    | foreign x => cases hu
    | node h' l ps =>
      cases hu
      exact ⟨l, ps, hat⟩
  · rintro ⟨l, ps, hat⟩
    exact headAt?_of_at? hat

/-- Two ways down that lead through parts of one place to the same place take the same part. -/
theorem eq_of_prefix_of_prefix {p q : Position} {i j : Nat} (hi : q ++ [i] <+: p)
    (hj : q ++ [j] <+: p) : i = j := by
  have hprefix := List.prefix_of_prefix_length_le hi hj (by simp)
  have heq := hprefix.eq_of_length (by simp)
  simpa using heq

/-! ## 2. Every visit is the visit at its position -/

mutual

theorem eq_visitAt_of_mem_visitsAt {root : Tree} {p : Position} :
    ∀ (t : Tree), root.at? p = some t → ∀ v ∈ visitsAt (root.parentAt p) p t,
      v = root.visitAt v.node.position
  | node h l ps, ht, v, hv => by
    simp only [visitsAt, List.mem_cons] at hv
    rcases hv with rfl | hv
    · simp only [visitAt, occurrenceAt_of_at? ht]
    · rw [← occurrenceAt_of_at? ht] at hv
      exact eq_visitAt_of_mem_visitsOfParts ht 0 ps (by simp) v hv
  | foreign _, _, v, hv => by simp [visitsAt] at hv

theorem eq_visitAt_of_mem_visitsOfParts {root t : Tree} {p : Position}
    (ht : root.at? p = some t) (i : Nat) :
    ∀ (ts : List Tree), ts = t.parts.drop i →
      ∀ v ∈ visitsOfParts (root.occurrenceAt p) i ts, v = root.visitAt v.node.position
  | [], _, v, hv => by simp [visitsOfParts] at hv
  | u :: us, hus, v, hv => by
    have hi : t.parts[i]? = some u := by rw [← List.head?_drop, ← hus]; rfl
    have hrest : us = t.parts.drop (i + 1) := by rw [← List.tail_drop, ← hus]; rfl
    have hu : root.at? (p ++ [i]) = some u := (at?_snoc ht i).trans hi
    simp only [visitsOfParts, List.mem_append] at hv
    rcases hv with hv | hv
    · refine eq_visitAt_of_mem_visitsAt u hu v ?_
      rw [parentAt_snoc]
      exact hv
    · exact eq_visitAt_of_mem_visitsOfParts ht (i + 1) us hrest v hv

end

/-- The visits of a tree are the visits at its positions. -/
theorem visits_eq_map (t : Tree) : t.visits = t.positions.map t.visitAt := by
  have h : ∀ v ∈ t.visits, v = t.visitAt v.node.position :=
    @eq_visitAt_of_mem_visitsAt t [] t rfl
  calc t.visits = t.visits.map id := (List.map_id t.visits).symm
    _ = t.visits.map (fun v => t.visitAt v.node.position) := List.map_congr_left h
    _ = t.positions.map t.visitAt := by rw [positions, List.map_map]; rfl

/-! ## 3. The positions are the places of nodes -/

mutual

/-- A visit is of a node at or below the place where the tree stands. -/
theorem node_of_mem_visitsAt {parent : Option Occurrence} {p : Position} :
    ∀ (t : Tree), ∀ v ∈ visitsAt parent p t,
      ∃ q h l ps, v.node = ⟨p ++ q, node h l ps⟩
  | node h l ps, v, hv => by
    simp only [visitsAt, List.mem_cons] at hv
    rcases hv with rfl | hv
    · exact ⟨[], h, l, ps, by simp⟩
    · obtain ⟨j, q, h', l', ps', -, hn⟩ := node_of_mem_visitsOfParts ps v hv
      exact ⟨j :: q, h', l', ps', hn⟩
  | foreign _, v, hv => by simp [visitsAt] at hv

/-- A visit of the parts from number `i` on is below a part with such a number. -/
theorem node_of_mem_visitsOfParts {parent : Occurrence} {i : Nat} :
    ∀ (ts : List Tree), ∀ v ∈ visitsOfParts parent i ts,
      ∃ j q h l ps, i ≤ j ∧ v.node = ⟨parent.position ++ j :: q, node h l ps⟩
  | [], v, hv => by simp [visitsOfParts] at hv
  | t :: ts, v, hv => by
    simp only [visitsOfParts, List.mem_append] at hv
    rcases hv with hv | hv
    · obtain ⟨q, h, l, ps, hn⟩ := node_of_mem_visitsAt t v hv
      exact ⟨i, q, h, l, ps, Nat.le_refl i, by simpa using hn⟩
    · obtain ⟨j, q, h, l, ps, hj, hn⟩ := node_of_mem_visitsOfParts ts v hv
      exact ⟨j, q, h, l, ps, Nat.le_of_succ_le hj, hn⟩

end

/-- The visits of a part are among the visits of all parts. -/
theorem mem_visitsOfParts {parent : Occurrence} {v : Visit} :
    ∀ {ts : List Tree} {i j : Nat} {t : Tree}, ts[j]? = some t →
      v ∈ visitsAt (some parent) (parent.position ++ [i + j]) t →
      v ∈ visitsOfParts parent i ts
  | [], _, _, _, hj, _ => by simp at hj
  | u :: us, i, 0, t, hj, hv => by
    simp only [List.getElem?_cons_zero, Option.some.injEq] at hj
    subst hj
    simp only [visitsOfParts, List.mem_append]
    exact .inl hv
  | u :: us, i, j + 1, t, hj, hv => by
    simp only [List.getElem?_cons_succ] at hj
    simp only [visitsOfParts, List.mem_append]
    refine .inr (mem_visitsOfParts hj ?_)
    rw [Nat.add_right_comm]
    exact hv

/-- Every node inside a tree is visited. -/
theorem exists_mem_visitsAt {u : Tree} (hu : u.isNode = true) (q : Position) :
    ∀ (t : Tree) (parent : Option Occurrence) (p : Position), t.at? q = some u →
      ∃ v ∈ visitsAt parent p t, v.node.position = p ++ q := by
  induction q with
  | nil =>
    intro t parent p h
    simp only [at?_nil, Option.some.injEq] at h
    subst h
    cases t with
    | node h l ps => exact ⟨_, List.mem_cons_self, by simp⟩
    | foreign x => simp at hu
  | cons i q ih =>
    intro t parent p h
    obtain ⟨c, hc, hq⟩ := Option.bind_eq_some_iff.mp h
    cases t with
    | foreign x => simp [parts] at hc
    | node hd l ps =>
      obtain ⟨v, hv, hvp⟩ := ih c (some ⟨p, node hd l ps⟩) (p ++ [i]) hq
      refine ⟨v, ?_, by simpa using hvp⟩
      simp only [visitsAt, List.mem_cons]
      refine .inr (mem_visitsOfParts hc ?_)
      simpa using hv

/-- The positions of a tree are exactly the places where its nodes stand. -/
theorem mem_positions_iff (t : Tree) (p : Position) :
    p ∈ t.positions ↔ ∃ h l ps, t.at? p = some (node h l ps) := by
  constructor
  · intro hp
    obtain ⟨v, hv, rfl⟩ := List.mem_map.mp hp
    have hat := at?_of_mem_visits t v hv
    obtain ⟨q, h, l, ps, hn⟩ := node_of_mem_visitsAt t v hv
    exact ⟨h, l, ps, by rw [hat, hn]⟩
  · intro h
    obtain ⟨h, l, ps, hp⟩ := h
    obtain ⟨v, hv, hvp⟩ := exists_mem_visitsAt rfl p t none [] hp
    exact List.mem_map.mpr ⟨v, hv, by simpa using hvp⟩

/-! ## 4. Positions come in pre-order -/

mutual

theorem pairwise_visitsAt {parent : Option Occurrence} {p : Position} :
    ∀ (t : Tree), (visitsAt parent p t).Pairwise fun v w => v.node.position < w.node.position
  | node h l ps => by
    simp only [visitsAt, List.pairwise_cons]
    refine ⟨fun v hv => ?_, pairwise_visitsOfParts ps⟩
    obtain ⟨j, q, h', l', ps', -, hn⟩ := node_of_mem_visitsOfParts ps v hv
    have hlt : p ++ [] < p ++ j :: q := List.append_left_lt (List.nil_lt_cons j q)
    rw [hn]
    simpa using hlt
  | foreign _ => by simp [visitsAt]

theorem pairwise_visitsOfParts {parent : Occurrence} {i : Nat} :
    ∀ (ts : List Tree),
      (visitsOfParts parent i ts).Pairwise fun v w => v.node.position < w.node.position
  | [] => by simp [visitsOfParts]
  | t :: ts => by
    simp only [visitsOfParts, List.pairwise_append]
    refine ⟨pairwise_visitsAt t, pairwise_visitsOfParts ts, fun v hv w hw => ?_⟩
    obtain ⟨q, h, l, ps, hv⟩ := node_of_mem_visitsAt t v hv
    obtain ⟨j, q', h', l', ps', hj, hw⟩ := node_of_mem_visitsOfParts ts w hw
    rw [hv, hw, List.append_assoc]
    exact List.append_left_lt (List.cons_lt_cons_iff.mpr (.inl hj))

end

/-- Positions are listed in pre-order, each of them once. -/
theorem pairwise_positions (t : Tree) : t.positions.Pairwise (· < ·) :=
  List.pairwise_map.mpr (pairwise_visitsAt t)

theorem nodup_positions (t : Tree) : t.positions.Nodup := by
  refine t.pairwise_positions.imp ?_
  rintro p _ hlt rfl
  exact List.lt_irrefl p hlt

/-! ## 5. The nodes of a tree -/

/-- The nodes of a tree are what stands at its positions. -/
theorem nodes_eq_map (t : Tree) : t.nodes = t.positions.map fun p => (t.occurrenceAt p).tree := by
  rw [nodes, visits_eq_map, List.map_map]
  rfl

theorem mem_positions_of_headAt? {t : Tree} {p : Position} {h : Head}
    (hhead : t.headAt? p = some h) : p ∈ t.positions := by
  obtain ⟨l, ps, hat⟩ := headAt?_eq_some_iff.mp hhead
  exact (mem_positions_iff t p).mpr ⟨h, l, ps, hat⟩

/-- A node that stands at a place of the tree is one of its nodes. -/
theorem mem_nodes_of_at? {t : Tree} {p : Position} {h : Head} {l : Location} {ps : List Tree}
    (hat : t.at? p = some (node h l ps)) : node h l ps ∈ t.nodes := by
  rw [nodes_eq_map, List.mem_map]
  exact ⟨p, (mem_positions_iff t p).mpr ⟨h, l, ps, hat⟩, by rw [occurrenceAt_of_at? hat]⟩

/-- What is inside of a place of the tree is inside of the tree. -/
theorem mem_nodes_of_mem_nodes_at? {t u v : Tree} {p : Position} (hat : t.at? p = some u)
    (hv : v ∈ u.nodes) : v ∈ t.nodes := by
  rw [nodes_eq_map, List.mem_map] at hv
  obtain ⟨q, hq, rfl⟩ := hv
  obtain ⟨h, l, ps, hatq⟩ := (mem_positions_iff u q).mp hq
  rw [occurrenceAt_of_at? hatq]
  exact mem_nodes_of_at? (show t.at? (p ++ q) = _ by rw [at?_append, hat, Option.bind_some, hatq])

mutual

/-- The trees of visits do not depend on where the visits stand. -/
theorem map_tree_visitsAt {parent : Option Occurrence} {p : Position} :
    ∀ (t : Tree), (visitsAt parent p t).map (fun v => v.node.tree) = t.nodes
  | node h l ps => by
    simp only [nodes, visits, visitsAt, List.map_cons]
    rw [map_tree_visitsOfParts ps, map_tree_visitsOfParts ps]
  | foreign _ => by simp [nodes, visits, visitsAt]

theorem map_tree_visitsOfParts {parent : Occurrence} {i : Nat} :
    ∀ (ts : List Tree),
      (visitsOfParts parent i ts).map (fun v => v.node.tree) = ts.flatMap nodes
  | [] => by simp [visitsOfParts]
  | t :: ts => by
    simp only [visitsOfParts, List.map_append, List.flatMap_cons]
    rw [map_tree_visitsAt t, map_tree_visitsOfParts ts]

end

/-- The nodes of a node are itself and the nodes of its parts. -/
theorem nodes_node (h : Head) (l : Location) (ps : List Tree) :
    (node h l ps).nodes = node h l ps :: ps.flatMap nodes := by
  simp only [nodes, visits, visitsAt, List.map_cons]
  rw [map_tree_visitsOfParts]

@[simp] theorem nodes_foreign (x : Foreign) : (foreign x).nodes = [] := rfl

end ManifestLint.Tree
