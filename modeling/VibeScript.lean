import VibeScript.Main
import VibeScript.Proofs.Check.Errors
import VibeScript.Proofs.Diagnostic.Reports
import VibeScript.Proofs.Diagnostic.Translation
import VibeScript.Proofs.Rpc.Dispatch
import VibeScript.Proofs.Server.Responses
import VibeScript.Proofs.Server.Documents
import VibeScript.Proofs.Server.Publishing
import VibeScript.Proofs.Framing.RoundTrip
import VibeScript.Proofs.Json.Encoding
import VibeScript.Proofs.Server.Serving
import VibeScript.Proofs.Check.Acceptance
import VibeScript.Proofs.Json.Atoms
import VibeScript.Proofs.Json.Strings
import VibeScript.Proofs.Text.Utf8
import VibeScript.Proofs.Json.RoundTrip
import VibeScript.Proofs.Rpc.Agreement
import VibeScript.Proofs.Server.Journal
import VibeScript.Proofs.Server.Refinement
import VibeScript.Proofs.Server.LastWriter
import VibeScript.Proofs.Check.Loops
import VibeScript.Proofs.Server.StandardReplies
import VibeScript.Proofs.Token.Spans
import VibeScript.Proofs.Check.Joining
import VibeScript.Proofs.Check.LineEnds
import VibeScript.Proofs.Server.Separation
import VibeScript.Proofs.Server.Malformed
import VibeScript.Proofs.Server.Course
import VibeScript.Proofs.Server.ExitStatus
import VibeScript.Proofs.Framing.Failures
import VibeScript.Proofs.Server.Failures
import VibeScript.Proofs.Server.Hover
import VibeScript.Proofs.Text.Cursor
import VibeScript.Proofs.Diagnostic.Search
import VibeScript.Proofs.Diagnostic.RoundTrip
import VibeScript.Proofs.Framing.Grammar
import VibeScript.Proofs.Framing.Cuts
import VibeScript.Proofs.Server.BrokenStreams
import VibeScript.Proofs.Token.Names
import VibeScript.Proofs.Diagnostic.Ranges
import VibeScript.Proofs.Token.Order
import VibeScript.Proofs.Check.Blocks
import VibeScript.Proofs.Check.ErrorOrder
import VibeScript.Proofs.Check.TopLevel
import VibeScript.Proofs.CommandLine.Check
import VibeScript.Proofs.Diagnostic.Caret
import VibeScript.Proofs.Token.Composition
import VibeScript.Proofs.Text.Adjunction
