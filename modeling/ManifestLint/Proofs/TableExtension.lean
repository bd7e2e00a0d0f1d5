/-
ManifestLint.Proofs.TableExtension — what one more entry of a dispatch table changes.

A walk goes through the same visits whatever the table says; the table decides on each of them
which routine the node is given to. So the trace of a walk over an extended table is the old trace
with the routine of some dispatches replaced, and to say which ones it is enough to look at one
node: an entry for a kind wins over all groups, and an entry for a group over the groups after it.

The main statements: a trace is the visits of the tree with the table's routines (`trace_eq_map`),
one more entry changes the routine of the nodes that it is first to match
(`routineFor_insert_exact`, `routineFor_insert_group`), and so extending a table is local
(`extension_is_local`).
-/
import ManifestLint.Proofs.Pass
import Mathlib.Data.List.Nodup

namespace ManifestLint.DispatchTable

variable {ρ : Type}

/-! ## 1. Traces -/

/-- What happens when a node is visited. -/
def dispatch (table : DispatchTable ρ) (v : Visit) : TraceEntry ρ :=
  ⟨v.parent, v.node, table.routineFor v.node.tree⟩

/-- A walk dispatches the visits of the tree one after another. -/
theorem trace_eq_map (table : DispatchTable ρ) (root : Tree) :
    table.trace root = root.visits.map table.dispatch := by
  have hrecord : ∀ (vs : List Visit) (done : List (TraceEntry ρ)),
      Walk.foldVisits (fun parent o done =>
        (.ok (⟨parent, o, table.routineFor o.tree⟩ :: done) : Except Empty _)) vs done =
          .ok ((vs.map table.dispatch).reverse ++ done) := by
    intro vs
    induction vs with
    | nil => exact fun _ => rfl
    | cons v vs ih =>
      intro done
      simp [Walk.foldVisits, Except.bind, ih, dispatch]
  simp only [trace, Walk.run_eq_foldVisits, ← Tree.visits_eq_map, hrecord, Except.map,
    List.append_nil, List.reverse_reverse]

/-- The routines that a walk runs on the node at a position. -/
def runsAt (table : DispatchTable ρ) (root : Tree) (p : Position) : List ρ :=
  ((table.trace root).filter fun e => e.node.position = p).filterMap TraceEntry.routine

/-- A walk runs the routine that the table has for a node once on it, and nothing else. -/
theorem runsAt_eq (table : DispatchTable ρ) (root : Tree) (p : Position) :
    table.runsAt root p =
      if p ∈ root.positions then (table.routineFor (root.occurrenceAt p).tree).toList else [] := by
  have hposition : ∀ q : Position, (table.dispatch (root.visitAt q)).node.position = q :=
    fun _ => rfl
  have htrace : (table.trace root).filter (fun e => e.node.position = p) =
      (List.replicate (root.positions.count p) p).map
        (table.dispatch ∘ root.visitAt) := by
    rw [trace_eq_map, Tree.visits_eq_map, List.map_map, List.filter_map, ← List.filter_eq]
    simp only [Function.comp_def, hposition]
  rw [runsAt, htrace, root.nodup_positions.count]
  by_cases hp : p ∈ root.positions
  · rw [if_pos hp, if_pos hp]
    cases hroutine : table.routineFor (root.occurrenceAt p).tree <;>
      simp [dispatch, Tree.visitAt, hroutine]
  · rw [if_neg hp, if_neg hp]
    rfl

/-! ## 2. One more entry -/

/-- Holds of trees whose own kind is among the entries. -/
def hasEntry (kinds : List (Kind × ρ)) (t : Tree) : Bool :=
  t.kind?.any fun k => (kinds.lookup k).isSome

/-- Holds of the trees of a group that an entry for it comes to if `kinds` are the entries for
kinds, and `before` those for groups that stand before it. -/
def reaches (kinds : List (Kind × ρ)) (before : List (Group × ρ)) (g : Group) (t : Tree) : Bool :=
  t.isA g && !hasEntry kinds t && before.all fun e => !t.isA e.1

section Insert

variable {kinds kinds' : List (Kind × ρ)} {groups groups' : List (Group × ρ)} {k : Kind}
  {g : Group}

/-- One more entry for a kind decides on the nodes of that kind, and on no others. -/
theorem routineFor_insert_exact (h : (kinds ++ kinds').lookup k = none) (r : ρ) (t : Tree) :
    routineFor ⟨kinds ++ (k, r) :: kinds', groups⟩ t =
      if t.kind? = some k then some r else routineFor ⟨kinds ++ kinds', groups⟩ t := by
  unfold routineFor
  cases t.kind? with
  | none => rfl
  | some k' =>
    rw [List.lookup_append, Option.or_eq_none_iff] at h
    simp only [Option.bind_some, Option.some.injEq, routine?, List.lookup_append, List.lookup_cons]
    by_cases hk : k' = k
    · subst hk
      simp [h.1]
    · have hbeq : (k' == k) = false := beq_eq_false_iff_ne.mpr hk
      rw [hbeq, if_neg hk]

/-- One more entry for a group decides on the nodes of the group that no entry before it is for,
and on no others. -/
theorem routineFor_insert_group (r : ρ) (t : Tree) :
    routineFor ⟨kinds, groups ++ (g, r) :: groups'⟩ t =
      if reaches kinds groups g t then some r
      else routineFor ⟨kinds, groups ++ groups'⟩ t := by
  unfold routineFor reaches Tree.isA hasEntry
  cases t.kind? with
  | none => rfl
  | some k =>
    simp only [Option.bind_some, Option.any_some, routine?, List.find?_append]
    obtain hkind | ⟨r', hkind⟩ := (kinds.lookup k).eq_none_or_eq_some
    case inr => simp [hkind]
    cases hbefore : groups.find? fun e => e.1.has k with
    | some e =>
      have hall : (groups.all fun e => !e.1.has k) = false := by
        rw [List.all_eq_false]
        exact ⟨e, List.mem_of_find?_eq_some hbefore, by simpa using List.find?_some hbefore⟩
      simp [hkind, hall]
    | none =>
      have hall : (groups.all fun e => !e.1.has k) = true := by
        simpa using hbefore
      by_cases hg : g.has k = true <;> simp [hkind, hall, hg]

end Insert

/-! ## 3. Walks -/

/-- A dispatch that goes to another routine if it is of a tree with the property. -/
def reroute (P : Tree → Bool) (r : ρ) (e : TraceEntry ρ) : TraceEntry ρ :=
  if P e.node.tree then { e with routine := some r } else e

/-- If one table differs from another in the routine of the trees with a property, a walk over it
has another routine at the dispatches of these. -/
theorem trace_eq_map_reroute {table table' : DispatchTable ρ} {P : Tree → Bool} {r : ρ}
    (h : ∀ t, table'.routineFor t = if P t then some r else table.routineFor t) (root : Tree) :
    table'.trace root = (table.trace root).map (reroute P r) := by
  rw [trace_eq_map, trace_eq_map, List.map_map]
  refine List.map_congr_left ?_
  intro v _
  rw [Function.comp_apply, dispatch, dispatch, reroute, h]
  dsimp only
  split <;> rfl

/-- Extending a table is local. A walk runs at most one routine on a node, and dispatches the same
nodes in the same order and under the same parents whatever the table is. One more entry for a
kind that has none changes the routine of the nodes of that very kind; one more entry for a group
changes the routine of the nodes that belong to the group and have neither an entry for their kind
nor one for another group before it. -/
theorem extension_is_local (root : Tree) :
    (∀ (table : DispatchTable ρ) p, (table.runsAt root p).length ≤ 1) ∧
    (∀ table table' : DispatchTable ρ,
      (table.trace root).map (fun e => (e.parent, e.node)) =
        (table'.trace root).map fun e => (e.parent, e.node)) ∧
    (∀ (kinds kinds' : List (Kind × ρ)) groups k r, (kinds ++ kinds').lookup k = none →
      trace ⟨kinds ++ (k, r) :: kinds', groups⟩ root =
        (trace ⟨kinds ++ kinds', groups⟩ root).map (reroute (fun t => t.kind? = some k) r)) ∧
    ∀ (kinds : List (Kind × ρ)) groups groups' g r,
      trace ⟨kinds, groups ++ (g, r) :: groups'⟩ root =
        (trace ⟨kinds, groups ++ groups'⟩ root).map (reroute (reaches kinds groups g) r) := by
  refine ⟨?_, ?_, ?_, ?_⟩
  · intro table p
    rw [runsAt_eq]
    split
    · cases table.routineFor (root.occurrenceAt p).tree <;> simp
    · simp
  · intro table table'
    rw [trace_eq_map, trace_eq_map, List.map_map, List.map_map]
    rfl
  · intro kinds kinds' groups k r h
    refine trace_eq_map_reroute ?_ root
    intro t
    rw [routineFor_insert_exact h]
    simp only [decide_eq_true_eq]
  · intro kinds groups groups' g r
    exact trace_eq_map_reroute (fun t => routineFor_insert_group r t) root

/-- An entry for `if` takes the statement away from the group that it belongs to, and leaves the
`unless` inside of it, a special form of it, to that group. -/
theorem extension_is_local_conditional :
    (([] : List (Kind × Nat)) ++ []).lookup Kind.ifStatement = none ∧
    ((DispatchTable.mk [(Kind.ifStatement, 1)] [(Group.kind .ifStatement, 2)]).trace
        (.node .ifStatement .unknown [.node .unlessStatement .unknown []])).map
      TraceEntry.routine = [some 1, some 2] := by
  have h : (([] : List (Kind × Nat)) ++ []).lookup Kind.ifStatement = none := rfl
  refine ⟨h, ?_⟩
  have hlocal := (extension_is_local
    (.node .ifStatement .unknown [.node .unlessStatement .unknown []])).2.2.1 [] []
      [(Group.kind .ifStatement, 2)] .ifStatement 1 h
  rw [List.nil_append] at hlocal
  rw [hlocal]
  rfl

end ManifestLint.DispatchTable
