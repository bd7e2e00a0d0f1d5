/-
ManifestLint.CommandLine.FileTree — files by path, and why a path cannot be read.

A file tree is a list of files and directories by their components; directories above a
file need not be listed. Looking a path up goes component by component from the
working directory, as an operating system does, so that of several things wrong
with a path the leftmost is reported.
-/
import ManifestLint.CommandLine.Path

namespace ManifestLint.CommandLine

/-- Why a path cannot be read. -/
inductive FileFault where
  | noSuchFile
  | isDirectory
  | notDirectory
  | nameTooLong
  | other (reason : String)
  deriving DecidableEq, Repr

/-- The words for a file fault. -/
def FileFault.message : FileFault → String
  | .noSuchFile => "No such file or directory"
  | .isDirectory => "Is a directory"
  | .notDirectory => "Not a directory"
  | .nameTooLong => "File name too long"
  | .other reason => reason

/-- What a file holds, or why it cannot be read. -/
abbrev Content := Except FileFault (List UInt8)

/-- A file or a directory in a file tree. -/
inductive Entry where
  | file (bytes : List UInt8)
  | directory
  deriving DecidableEq, Repr

/-- Files and directories by their components below the working directory. -/
abbrev FileTree := List (List String × Entry)

namespace FileTree

/-- The most bytes of one component. -/
def componentLimit : Nat := 255

/-- The most bytes of a path. -/
def pathLimit : Nat := 4095

/-- What the components lead to, if they lead to anything. -/
def entry? (tree : FileTree) (components : List String) : Option Entry :=
  match tree.find? fun e => e.1 == components with
  | some e => some e.2
  | none => if tree.any fun e => components.isPrefixOf e.1 then some .directory else none

/-- Where a look-up stands: above the working directory, or at components below it. -/
inductive Place where
  | above
  | below (components : List String) (entry : Entry)

/-- One step of a look-up. -/
def enter (tree : FileTree) (place : Place) (component : String) : Except FileFault Place :=
  match place with
  | .below _ (.file _) => .error .notDirectory
  | .above => if component = ".." then .ok .above else .error .noSuchFile
  | .below here .directory =>
    if component = ".." then
      .ok (if here = [] then .above else .below here.dropLast .directory)
    else if componentLimit < component.utf8ByteSize then .error .nameTooLong
    else match tree.entry? (here ++ [component]) with
      | some e => .ok (.below (here ++ [component]) e)
      | none => .error .noSuchFile

/-- Looks components up one after another. -/
def follow (tree : FileTree) (place : Place) : List String → Except FileFault Place
  | [] => .ok place
  | c :: cs => do follow tree (← enter tree place c) cs

/-- The content of the file that a path names. Nothing is known of what stands outside of the
working directory but that it is no file of the tree. -/
def read (tree : FileTree) (p : Path) : Content := do
  if pathLimit < p.shown.utf8ByteSize then .error .nameTooLong
  let start := if p.root = "" then Place.below [] .directory else .above
  match ← follow tree start p.components with
  | .below _ (.file bytes) => .ok bytes
  | _ => .error .isDirectory

end FileTree

end ManifestLint.CommandLine
