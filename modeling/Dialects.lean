import Dialects.Text.CodePoint
import Dialects.Text.Ranges
import Dialects.Text.Letter
import Dialects.Text.Numeral
import Dialects.Text.Recent
import Dialects.Text.Blank
import Dialects.Text.Printable
import Dialects.Text.LowerCase
import Dialects.Text.Quoted
import Dialects.Text.Position
import Dialects.Text.Utf8
import Dialects.Failure
import Dialects.Script.Token
import Dialects.Script.Lexeme
import Dialects.Script.Fault
import Dialects.Script.Lexer
import Dialects.Script.Brackets
import Dialects.Script.Lenient
import Dialects.Script.Canonical
import Dialects.Json.Value
import Dialects.Json.Literal
import Dialects.Json.Token
import Dialects.Json.Reader
import Dialects.Json.Printer
import Dialects.Json.Convert
import Dialects.Action
import Dialects.Conversion.Basic
import Dialects.Conversion.Registry
import Dialects.Conversion.Simple
import Dialects.Events.Emitter
import Dialects.Events.Scene
import Dialects.Grammar
import Dialects.Editor.Notification
import Dialects.Streams.Reading
import Dialects.Streams.Transaction
import Dialects.Streams.Transcoding
import Dialects.Editor.Handle
import Dialects.Editor.Document
import Dialects.Editor.Controller
import Dialects.Storage.Memory
import Dialects.Rehearsal.Writing
import Dialects.Rehearsal.Transcoding
import Dialects.Rehearsal.Handles
import Dialects.Editor.Forwarding
import Dialects.Rehearsal.Control
import Dialects.Text.Blocks
import Dialects.Text.Integer
import Dialects.Ini.Basic
import Dialects.Ini.Reader
import Dialects.Ini.Substitution
import Dialects.Configuration
import Dialects.Preferences
import Dialects.Storage.Fault
import Dialects.Storage.Tree
import Dialects.Storage.Directory
import Dialects.Editor.Workspace
import Dialects.Rehearsal.Workroom
import Dialects.CommandLine.Arguments
import Dialects.CommandLine.Usage
import Dialects.CommandLine.Run
import Dialects.Main
import Dialects.Proofs.Json.Number
import Dialects.Proofs.Json.Lexing
import Dialects.Proofs.Json.WellFormed
import Dialects.Proofs.Json.Printing
import Dialects.Proofs.Json.Reading
import Dialects.Proofs.Json.RoundTrip
import Dialects.Proofs.Json.Extension
import Dialects.Proofs.Json.Encodable
import Dialects.Proofs.Table
import Dialects.Proofs.Editor.Confined
import Dialects.Proofs.Editor.Operations
import Dialects.Proofs.Editor.Transitions
import Dialects.Proofs.Editor.Run
import Dialects.Proofs.Editor.StoredDialect
import Dialects.Proofs.Storage.Memory
import Dialects.Proofs.Editor.Agreement
import Dialects.Proofs.Script.Border
import Dialects.Proofs.Script.Lexemes
import Dialects.Proofs.Script.Nearby
import Dialects.Proofs.Script.Steps
import Dialects.Proofs.Script.Edges
import Dialects.Proofs.Script.Gaps
import Dialects.Proofs.Script.Lexed
import Dialects.Proofs.Script.Marked
import Dialects.Proofs.Script.Insertion
import Dialects.Proofs.Script.Relexing
import Dialects.Proofs.Script.Punctuation
import Dialects.Proofs.Script.Restoring
import Dialects.Proofs.Script.Brackets
import Dialects.Proofs.Script.RoundTrip
import Dialects.Proofs.Script.Supplied
import Dialects.Proofs.Script.Templates
import Dialects.Proofs.Script.Stability
import Dialects.Proofs.Script.Fused
import Dialects.Proofs.Script.Literals
import Dialects.Proofs.Script.Lists
import Dialects.Proofs.Script.Rereading
import Dialects.Proofs.Streams.Storing
import Dialects.Proofs.Streams.History
import Dialects.Proofs.Streams.Transactional
import Dialects.Proofs.Streams.Endings
import Dialects.Proofs.Editor.Saving
import Dialects.Proofs.Editor.Mapping
import Dialects.Proofs.Editor.Refusal
import Dialects.Proofs.Editor.Standing
import Dialects.Proofs.Editor.Separation
import Dialects.Proofs.Editor.Deactivation
import Dialects.Proofs.Editor.Attendance
import Dialects.Proofs.Editor.Workspace
import Dialects.Proofs.Editor.Unfailing
import Dialects.Proofs.Editor.Restart
import Dialects.Proofs.Editor.Reports
import Dialects.Proofs.Editor.Landing
import Dialects.Proofs.Editor.Naming
import Dialects.Proofs.Editor.Recording
import Dialects.Proofs.Editor.Clearing
import Dialects.Proofs.Text.Utf8
import Dialects.Proofs.Configuration
import Dialects.Proofs.CommandLine.Converting
import Dialects.Proofs.CommandLine.Outcomes
import Dialects.Proofs.Script.Nesting
import Dialects.Proofs.Script.Coherence
import Dialects.Proofs.Json.Grammar
import Dialects.Proofs.Script.Calls
import Dialects.Proofs.Json.Runs
import Dialects.Proofs.Json.Located
import Dialects.Proofs.Editor.Settling
import Dialects.Proofs.Editor.Coverage
import Dialects.Proofs.Editor.Switching
import Dialects.Proofs.Editor.Bookkeeping
import Dialects.Proofs.Conversion.Registry
import Dialects.Proofs.Tracing
import Dialects.Proofs.Events.Record
import Dialects.Proofs.Events.Subscriptions
import Dialects.Proofs.Events.Groups
import Dialects.Proofs.Text.Position
import Dialects.Proofs.Script.Conditionals
import Dialects.Proofs.Editor.Forwarding
