import ShiftReduce.CommandLine.Options
import ShiftReduce.CommandLine.Output
import ShiftReduce.CommandLine.Request
import ShiftReduce.Files.Failure
import ShiftReduce.Files.Tree
import ShiftReduce.Input
import ShiftReduce.Log.Filter
import ShiftReduce.Log.Record
import ShiftReduce.Main
import ShiftReduce.OrderedMap
import ShiftReduce.Pattern.Basic
import ShiftReduce.Pattern.CharSet
import ShiftReduce.Pattern.Class
import ShiftReduce.Pattern.ClassMeaning
import ShiftReduce.Pattern.Escape
import ShiftReduce.Pattern.Fault
import ShiftReduce.Pattern.Group
import ShiftReduce.Pattern.Meaning
import ShiftReduce.Pattern.Reader
import ShiftReduce.Pattern.Reading
import ShiftReduce.Pattern.Simplify
import ShiftReduce.Pattern.Size
import ShiftReduce.Pattern.Syntax
import ShiftReduce.Pattern.Utf8
import ShiftReduce.Pattern.Written
import ShiftReduce.Proofs.Acceptance
import ShiftReduce.Proofs.Arguments
import ShiftReduce.Proofs.BoundedRuns
import ShiftReduce.Proofs.Building
import ShiftReduce.Proofs.Causality
import ShiftReduce.Proofs.Closed
import ShiftReduce.Proofs.Comparison
import ShiftReduce.Proofs.Completeness
import ShiftReduce.Proofs.Divergence
import ShiftReduce.Proofs.EndMarker
import ShiftReduce.Proofs.ExitStatus
import ShiftReduce.Proofs.Extension
import ShiftReduce.Proofs.Failures
import ShiftReduce.Proofs.FirstDeclared
import ShiftReduce.Proofs.Forest
import ShiftReduce.Proofs.Format
import ShiftReduce.Proofs.Grammar
import ShiftReduce.Proofs.Grouping
import ShiftReduce.Proofs.Interchange
import ShiftReduce.Proofs.Iteration
import ShiftReduce.Proofs.LifeCycle
import ShiftReduce.Proofs.Limit
import ShiftReduce.Proofs.LineFaults
import ShiftReduce.Proofs.Lines
import ShiftReduce.Proofs.Listings
import ShiftReduce.Proofs.Lockstep
import ShiftReduce.Proofs.Numerals
import ShiftReduce.Proofs.Paths
import ShiftReduce.Proofs.Reduction
import ShiftReduce.Proofs.Reference
import ShiftReduce.Proofs.Relabelling
import ShiftReduce.Proofs.Renaming
import ShiftReduce.Proofs.Reordering
import ShiftReduce.Proofs.Repetition
import ShiftReduce.Proofs.Requests
import ShiftReduce.Proofs.Resuming
import ShiftReduce.Proofs.RoundTrip
import ShiftReduce.Proofs.Rows
import ShiftReduce.Proofs.Soundness
import ShiftReduce.Proofs.StackOperations
import ShiftReduce.Proofs.Steps
import ShiftReduce.Proofs.Symbols
import ShiftReduce.Proofs.Transcripts
import ShiftReduce.Proofs.Wording
import ShiftReduce.Run.Basic
import ShiftReduce.Run.Error
import ShiftReduce.Run.Progress
import ShiftReduce.Run.Reduction
import ShiftReduce.Run.Transcript
import ShiftReduce.TableFile.Error
import ShiftReduce.TableFile.Line
import ShiftReduce.TableFile.Load
import ShiftReduce.TableFile.Writer
import ShiftReduce.Tables.Basic
import ShiftReduce.Tables.Declaration
import ShiftReduce.Tables.Listing
import ShiftReduce.Text.Alphabetic
import ShiftReduce.Text.Blank
import ShiftReduce.Text.Numeral
import ShiftReduce.Text.Split
