/-
ManifestLint.Check.Dispatch — which routine a node is given to.

A dispatch table has entries for single kinds and an ordered list of entries for
groups. A kind's own entry comes first, then the first group that has the kind;
so a node is given to at most one routine.

The main statements: an entry of its own overrides every group
(`routine?_of_lookup`), and without one the first matching group decides
(`routine?_of_lookup_none`).
-/
import ManifestLint.Tree.Basic

namespace ManifestLint

/-- Routines by kind and by group. -/
structure DispatchTable (ρ : Type) where
  exact : List (Kind × ρ)
  groups : List (Group × ρ)

namespace DispatchTable

variable {ρ : Type}

/-- The routine for nodes of a kind. -/
def routine? (table : DispatchTable ρ) (k : Kind) : Option ρ :=
  (table.exact.lookup k).or ((table.groups.find? fun e => e.1.has k).map (·.2))

/-- The routine for a tree; what is no node is given to none. -/
def routineFor (table : DispatchTable ρ) (t : Tree) : Option ρ := t.kind?.bind table.routine?

theorem routine?_of_lookup (table : DispatchTable ρ) (k : Kind) (r : ρ)
    (h : table.exact.lookup k = some r) : table.routine? k = some r := by
  simp [routine?, h]

theorem routine?_of_lookup_none (table : DispatchTable ρ) (k : Kind)
    (h : table.exact.lookup k = none) :
    table.routine? k = (table.groups.find? fun e => e.1.has k).map (·.2) := by
  simp [routine?, h]

end DispatchTable

end ManifestLint
