import PipeTrace.FileTree
import PipeTrace.Main
import PipeTrace.Proofs.Text.ByteOrder
import PipeTrace.Proofs.Walk
import PipeTrace.Proofs.Findings
import PipeTrace.Proofs.Chronicle
import PipeTrace.Proofs.Replay
import PipeTrace.Proofs.Reference
import PipeTrace.Proofs.Edit
import PipeTrace.Proofs.Inert
import PipeTrace.Proofs.Reorder
import PipeTrace.Proofs.Verdict
import PipeTrace.Proofs.Text.WellFormed
import PipeTrace.Proofs.Lines
import PipeTrace.Proofs.Writes
import PipeTrace.Proofs.Conclusion
import PipeTrace.Proofs.Timing
import PipeTrace.Proofs.Interchange
import PipeTrace.Proofs.Exchange
import PipeTrace.Proofs.FullSink
import PipeTrace.Proofs.Text.Trimming
import PipeTrace.Proofs.Paragraphs
import PipeTrace.Proofs.LineEndings
import PipeTrace.Proofs.Counters
import PipeTrace.Proofs.Totals
import PipeTrace.Proofs.Calls
import PipeTrace.Proofs.Naming
import PipeTrace.Proofs.Text.Lacks
import PipeTrace.Proofs.Numerals
import PipeTrace.Proofs.Grammar
import PipeTrace.Proofs.Tidy
import PipeTrace.Proofs.Layout
import PipeTrace.Proofs.Restriction
import PipeTrace.Proofs.Correspondence
import PipeTrace.Proofs.Mirror
import PipeTrace.Proofs.Delay
import PipeTrace.Proofs.Warnings
import PipeTrace.Proofs.Tokens
import PipeTrace.Proofs.Regrouping
import PipeTrace.Proofs.Padding
import PipeTrace.Proofs.Colour
import PipeTrace.Proofs.Keys
import PipeTrace.Proofs.Separation
import PipeTrace.Proofs.Summary
import PipeTrace.Proofs.Rows
import PipeTrace.Proofs.Entries
import PipeTrace.Proofs.Scan
import PipeTrace.Proofs.Arguments
import PipeTrace.Proofs.Outcome
