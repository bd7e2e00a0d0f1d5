/-
ManifestLint.Source — reading a manifest tree from the bytes of a file.

The bytes have to be UTF-8; line ends become line feeds before the text is read.
-/
import ManifestLint.Text.Utf8
import ManifestLint.PN.Reading

namespace ManifestLint

/-- Why the bytes of a file make no tree. -/
inductive SourceError where
  | encoding (fault : Text.Utf8.Fault)
  | text (error : PN.ReadError)
  deriving DecidableEq, Repr

/-- Reads the bytes of a file. -/
def readSource (bytes : List UInt8) : Except SourceError Tree :=
  match Text.Utf8.decode bytes with
  | .error fault => .error (.encoding fault)
  | .ok cs => (PN.read (Text.Utf8.unifyNewlines cs)).mapError .text

end ManifestLint
