import CommandLine.Text
import CommandLine.Kind
import CommandLine.RedirectOp
import CommandLine.Operator
import CommandLine.Word
import CommandLine.Lexeme
import CommandLine.Token
import CommandLine.Cursor
import CommandLine.Text.Decimal
import CommandLine.Double
import CommandLine.Json
import CommandLine.Json.Read
import CommandLine.Json.Write
import CommandLine.Double.Shortest
import CommandLine.Text.Blank
import CommandLine.Text.Printable
import CommandLine.Text.Upper
import CommandLine.Text.Quoted
import CommandLine.Json.Display
import CommandLine.Region
import CommandLine.Segment
import CommandLine.Level
import CommandLine.Words
import CommandLine.View
import CommandLine.Tree
import CommandLine.Issue
import CommandLine.Diagnosis
import CommandLine.Report
import CommandLine.Settings.Numeral
import CommandLine.Settings.Bindings
import CommandLine.Settings.Reference
import CommandLine.Settings
import CommandLine.Settings.File
import CommandLine.Settings.Session
import CommandLine.Logging
import CommandLine.Room
import CommandLine.Tool
import CommandLine.Tool.Catalogue
import CommandLine.Tool.Dispatch
import CommandLine.Tool.Call
import CommandLine.Server.Application
import CommandLine.Server.Launch
import CommandLine.Place
import CommandLine.Name
import CommandLine.Main
import CommandLine.Proofs.Quoting
import CommandLine.Proofs.Cutting
import CommandLine.Proofs.Rereading
import CommandLine.Proofs.Nesting
import CommandLine.Proofs.Division
import CommandLine.Proofs.Grouping
import CommandLine.Proofs.Lossless
import CommandLine.Proofs.Walk
import CommandLine.Proofs.Grammar
import CommandLine.Proofs.Parts
import CommandLine.Proofs.Watching
import CommandLine.Proofs.Parsing
import CommandLine.Proofs.Acceptance
import CommandLine.Proofs.Automaton
import CommandLine.Proofs.Munching
import CommandLine.Proofs.Likeness
import CommandLine.Proofs.Shifting
import CommandLine.Proofs.Placing
import CommandLine.Proofs.Layout
import CommandLine.Proofs.Printing
import CommandLine.Proofs.Gathering
import CommandLine.Proofs.Targets
import CommandLine.Proofs.Executable
import CommandLine.Proofs.Matching
import CommandLine.Proofs.Repetition
import CommandLine.Proofs.Vacancies
import CommandLine.Proofs.Sequencing
import CommandLine.Proofs.Enclosing
import CommandLine.Proofs.Indexing
import CommandLine.Proofs.Checking
import CommandLine.Proofs.Descending
import CommandLine.Proofs.Navigation
import CommandLine.Proofs.Numerals
import CommandLine.Proofs.Reporting
import CommandLine.Proofs.Literals
import CommandLine.Proofs.Encoding
import CommandLine.Proofs.Payloads
import CommandLine.Proofs.Attempting
import CommandLine.Proofs.Dispatching
import CommandLine.Proofs.Answering
import CommandLine.Proofs.Splitting
import CommandLine.Proofs.Balancing
import CommandLine.Proofs.Allotting
import CommandLine.Proofs.Endings
import CommandLine.Proofs.Evidence
import CommandLine.Proofs.EmptyGroups
