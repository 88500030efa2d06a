import ConsoleLine.Completion
import ConsoleLine.Segment
import ConsoleLine.Proofs.Cut
import ConsoleLine.Proofs.Quote
import ConsoleLine.Proofs.OpenQuote
import ConsoleLine.Proofs.Token
import ConsoleLine.Proofs.Scan
import ConsoleLine.Proofs.Shape
import ConsoleLine.Proofs.Resume
import ConsoleLine.Proofs.RoundTrip
import ConsoleLine.Proofs.SplitSet
import ConsoleLine.Proofs.Whole
import ConsoleLine.Proofs.TypingOn
import ConsoleLine.Proofs.Comparison
import ConsoleLine.Proofs.Enclosed
import ConsoleLine.Proofs.Coverage
import ConsoleLine.Proofs.Search
import ConsoleLine.Proofs.Canonical
import ConsoleLine.Proofs.Priority
import ConsoleLine.Proofs.LastMatch
import ConsoleLine.Proofs.Walk
import ConsoleLine.Proofs.Projection
import ConsoleLine.Proofs.Queries
import ConsoleLine.Proofs.CompletionStart
import ConsoleLine.Proofs.Target
import ConsoleLine.Proofs.Word
import ConsoleLine.Proofs.LookAhead
import ConsoleLine.Proofs.Continuation
import ConsoleLine.Proofs.Log
import ConsoleLine.Proofs.ByOffset
