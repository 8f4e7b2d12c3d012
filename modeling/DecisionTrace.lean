import DecisionTrace.CommandLine.Generate
import DecisionTrace.CommandLine.Plot
import DecisionTrace.Main
import DecisionTrace.Random.Seed
import DecisionTrace.Event.Reader
import DecisionTrace.Proofs.TruncatedTraces
import DecisionTrace.Proofs.Reordering
import DecisionTrace.Proofs.ClauseText
import DecisionTrace.Proofs.TraceText
import DecisionTrace.Proofs.Renaming
import DecisionTrace.Proofs.ReplayFrames
import DecisionTrace.Proofs.DatasetFiles
import DecisionTrace.Proofs.Collections
import DecisionTrace.Proofs.SearchCounters
import DecisionTrace.Proofs.CheckedSearch
import DecisionTrace.Proofs.PlainReading
import DecisionTrace.Proofs.TraceLines
import DecisionTrace.Proofs.CrossChecks
import DecisionTrace.Proofs.Editing
import DecisionTrace.Proofs.Verdicts
import DecisionTrace.Proofs.ExitStatus
import DecisionTrace.Proofs.Attempts
import DecisionTrace.Proofs.ReplayTables
