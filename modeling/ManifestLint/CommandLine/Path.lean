/-
ManifestLint.CommandLine.Path — file paths as they are given and shown.

A path is its root (empty, or one or two slashes) and the components between
slashes. Empty components and single dots mean nothing and are dropped; double
dots are kept. A path without components is shown as its root or as a dot.

The main statement: no component of a path that was read is empty or a dot
(`components_clean`).
-/

namespace ManifestLint.CommandLine

/-- A file path without empty components and single dots. -/
structure Path where
  root : String
  components : List String
  deriving DecidableEq, Repr

namespace Path

/-- The parts of a text between slashes. -/
def splitSlashes : List Char → List (List Char)
  | [] => [[]]
  | c :: cs =>
    match splitSlashes cs with
    | part :: parts => if c = '/' then [] :: part :: parts else (c :: part) :: parts
    | [] => [[c]]

/-- Holds of components that mean something. -/
def isComponent (part : List Char) : Bool := part ≠ [] && part ≠ ['.']

/-- The root of a path: two slashes are a root of their own, any other number is one slash. -/
def rootOf (cs : List Char) : String :=
  match (cs.takeWhile (· = '/')).length with
  | 0 => ""
  | 2 => "//"
  | _ => "/"

/-- Reads a path. -/
def ofString (s : String) : Path :=
  ⟨rootOf s.toList, ((splitSlashes s.toList).filter isComponent).map String.ofList⟩

/-- A path as it is shown and opened. -/
def shown (p : Path) : String :=
  let text := p.root ++ String.intercalate "/" p.components
  if text = "" then "." else text

/-- Holds of paths with a NUL in some component. -/
def holdsNull (p : Path) : Bool := p.components.any fun c => c.toList.contains '\x00'

/-- No component is empty or a dot. -/
theorem components_clean (s : String) (c : String) (hc : c ∈ (ofString s).components) :
    isComponent c.toList = true := by
  simp only [ofString, List.mem_map, List.mem_filter] at hc
  obtain ⟨part, ⟨_, hp⟩, rfl⟩ := hc
  simpa using hp

end Path

end ManifestLint.CommandLine
