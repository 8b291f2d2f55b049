import NanoScript.Completion
import NanoScript.Dialogue
import NanoScript.Highlight
import NanoScript.Host.Reflection
import NanoScript.Inspection
import NanoScript.Main
import NanoScript.Phrase.Text
import NanoScript.Proofs.Bracket.Agreement
import NanoScript.Proofs.Bracket.Program
import NanoScript.Proofs.Bracket.Verdict
import NanoScript.Proofs.Completion
import NanoScript.Proofs.Evaluation.Access
import NanoScript.Proofs.Evaluation.Calling
import NanoScript.Proofs.Evaluation.Confinement
import NanoScript.Proofs.Evaluation.Desugaring
import NanoScript.Proofs.Evaluation.Locals
import NanoScript.Proofs.Grammar.Places
import NanoScript.Proofs.Highlight.Segments
import NanoScript.Proofs.Reading.Exhaustion
import NanoScript.Proofs.Record.Phrase
import NanoScript.Proofs.Reprinting.RoundTrip
import NanoScript.Proofs.Run.Blame
import NanoScript.Proofs.Run.Data
import NanoScript.Proofs.Run.Ending
import NanoScript.Proofs.Run.Identity
import NanoScript.Proofs.Run.Joining
import NanoScript.Proofs.Run.Keys
import NanoScript.Proofs.Run.Layout
import NanoScript.Proofs.Run.Location
import NanoScript.Proofs.Run.Operations
import NanoScript.Proofs.Run.Origin
import NanoScript.Proofs.Run.Scoping
import NanoScript.Proofs.Run.WellShaped
import NanoScript.Proofs.Scope.Views
import NanoScript.Proofs.Value.History
import NanoScript.Scope.Lemmas
import NanoScript.Value.Record
