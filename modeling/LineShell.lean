import LineShell.Main
import LineShell.Proofs.Line.Grammar
import LineShell.Line.Quoting
import LineShell.Proofs.Line.Cut
import LineShell.Proofs.Line.Instruction
import LineShell.Proofs.Line.Trim
import LineShell.Proofs.Host.Operation
import LineShell.Proofs.Host.Writing
import LineShell.Proofs.Delivery
import LineShell.Proofs.Command.Execution
import LineShell.Proofs.Shell.Answer
import LineShell.Proofs.Shell.Confinement
import LineShell.Proofs.Log.Setup
import LineShell.Proofs.Session.Order
import LineShell.Proofs.Host.Lookup
import LineShell.Proofs.Host.FileTree
import LineShell.Proofs.Completion.Candidates
import LineShell.Proofs.Completion.Acceptance
import LineShell.Proofs.Command.Description
import LineShell.Proofs.Shell.Launch
import LineShell.Proofs.Shell.Redirection
import LineShell.Proofs.Session.Omission
import LineShell.Proofs.Session.Past
import LineShell.Proofs.Session.Reads
import LineShell.Proofs.Session.Blank
import LineShell.Proofs.CommandLine.Options
import LineShell.Proofs.Session.Entry
import LineShell.Proofs.Host.Opening
import LineShell.Proofs.Host.Content
import LineShell.Proofs.Shell.Content
import LineShell.Proofs.Line.Joining
import LineShell.Proofs.Line.Occurrence
import LineShell.Proofs.Shell.Directive
import LineShell.Proofs.Line.Unquoted
import LineShell.Proofs.Command.SearchPath
import LineShell.Proofs.Host.Openable
import LineShell.Proofs.Delivery.File
import LineShell.Proofs.Host.Directory
import LineShell.Proofs.Shell.Directory
import LineShell.Proofs.Text.Utf8
import LineShell.Proofs.Text.Numeral
import LineShell.Proofs.Session.Retelling
import LineShell.Proofs.Session.Streams
import LineShell.Proofs.Session.Exit
import LineShell.Proofs.CommandLine.Startup
