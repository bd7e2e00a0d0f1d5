/-
ManifestLint.Main — the command line program.

Reads the files that the command line names and prints what checking them finds.
-/
import ManifestLint.CommandLine.Run

namespace ManifestLint.CommandLine

/-- Holds of an error number that is reported as `number` or as its negative. -/
def isErrorNumber (reported number : UInt32) : Bool := reported = number || reported = -number

/-- Why the operating system refuses to read a file. Error 20 names a file in the place of a
directory, and error 36 a name that is too long. -/
def FileFault.ofError : IO.Error → FileFault
  | .noFileOrDirectory .. => .noSuchFile
  | .inappropriateType _ number _ =>
    if isErrorNumber number 20 then .notDirectory else .isDirectory
  | .invalidArgument _ number details =>
    if isErrorNumber number 36 then .nameTooLong else .other details
  | .permissionDenied .. => .other "Permission denied"
  | e => .other (toString e)

/-- Reads the file that a path names. -/
def readPath (p : Path) : IO Content := do
  try
    let bytes ← IO.FS.readBinFile p.shown
    return .ok bytes.toList
  catch e => return .error (.ofError e)

/-- Prints an outcome and gives its exit code. -/
def Outcome.print (o : Outcome) : IO UInt32 := do
  IO.print o.out.toString
  IO.eprint o.err.toString
  return o.exitCode.toUInt32

/-- Prints why a run broke off. -/
def Interruption.print (i : Interruption) : IO UInt32 := do
  IO.eprint (i.log ++ Text.unlines [i.failure.message]).toString
  return 1

/-- Runs a command line over the files of the operating system. -/
def runOnFiles (arguments : List String) : IO UInt32 := do
  match parseArguments arguments with
  | .error e => (refusal e).print
  | .ok .help => help.print
  | .ok .noStrictness => Interruption.print ⟨[], .noStrictness⟩
  | .ok (.check s sources) =>
    let contents ← sources.mapM fun p => return (p, ← readPath p)
    match report s contents with
    | .ok o => o.print
    | .error i => i.print

end ManifestLint.CommandLine

/-- The command line program. -/
def main (arguments : List String) : IO UInt32 :=
  ManifestLint.CommandLine.runOnFiles arguments
