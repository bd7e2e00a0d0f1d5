import ManifestLint.Check.Session
import ManifestLint.Issue.Session
import ManifestLint.Main
import ManifestLint.Proofs.Pass
import ManifestLint.Proofs.Strictness
import ManifestLint.Proofs.Workflow
import ManifestLint.Proofs.Placement
import ManifestLint.Proofs.Faithful
import ManifestLint.Proofs.RoundTrip
import ManifestLint.Proofs.SourceOrder
import ManifestLint.Proofs.ReadFailure
import ManifestLint.Proofs.Session
import ManifestLint.Proofs.Independence
import ManifestLint.Proofs.Targets
import ManifestLint.Proofs.DeadStatements
import ManifestLint.Proofs.Attributes
import ManifestLint.Proofs.Viability
import ManifestLint.Proofs.StringEnds
import ManifestLint.Proofs.SinkLog
import ManifestLint.Proofs.TableExtension
import ManifestLint.Proofs.Fragment
import ManifestLint.Proofs.OutputLines
