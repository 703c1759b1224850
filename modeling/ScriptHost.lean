import ScriptHost.Application.Endpoint
import ScriptHost.Application.Host
import ScriptHost.Application.Plugins
import ScriptHost.Application.Respond
import ScriptHost.Border.Call
import ScriptHost.Border.Convert
import ScriptHost.Border.Environment
import ScriptHost.Border.Exposure
import ScriptHost.Border.Install
import ScriptHost.Control.CommandLine
import ScriptHost.Control.Commands
import ScriptHost.Control.Reload
import ScriptHost.Dialogue
import ScriptHost.Events.Signal
import ScriptHost.Events.Subscription
import ScriptHost.Fault
import ScriptHost.Files.Path
import ScriptHost.Files.Pattern
import ScriptHost.Files.Search
import ScriptHost.Files.Tree
import ScriptHost.Main
import ScriptHost.Number.Binary64
import ScriptHost.Number.Decimal
import ScriptHost.Picture
import ScriptHost.Request
import ScriptHost.Roster
import ScriptHost.Script.Arith
import ScriptHost.Script.Code
import ScriptHost.Script.Code.Naming
import ScriptHost.Script.Compile.Draft
import ScriptHost.Script.Compile.Emit
import ScriptHost.Script.Compile.Expression
import ScriptHost.Script.Compile.Scope
import ScriptHost.Script.Compile.Statement
import ScriptHost.Script.Environment
import ScriptHost.Script.Eval
import ScriptHost.Script.Heap
import ScriptHost.Script.Library.Arguments
import ScriptHost.Script.Library.Basic
import ScriptHost.Script.Library.Formats
import ScriptHost.Script.Library.Maths
import ScriptHost.Script.Library.Names
import ScriptHost.Script.Library.Natives
import ScriptHost.Script.Library.Searches
import ScriptHost.Script.Library.Tables
import ScriptHost.Script.Library.Texts
import ScriptHost.Script.Machine.Count
import ScriptHost.Script.Machine.Frame
import ScriptHost.Script.Machine.Step
import ScriptHost.Script.Numeral
import ScriptHost.Script.Operators
import ScriptHost.Script.Pattern
import ScriptHost.Script.Run
import ScriptHost.Script.Syntax
import ScriptHost.Script.Table
import ScriptHost.Script.Table.Association
import ScriptHost.Script.Table.Seats
import ScriptHost.Script.Token
import ScriptHost.Script.Value
import ScriptHost.Session.Lifecycle
import ScriptHost.Settings.Defaults
import ScriptHost.Settings.Document
import ScriptHost.Settings.Moment
import ScriptHost.Settings.Node
import ScriptHost.Settings.Scalar
import ScriptHost.Settings.Token
import ScriptHost.Settings.Value
import ScriptHost.Text.Blank
import ScriptHost.Text.Digit
import ScriptHost.Text.LetterCase
import ScriptHost.Text.Lines
import ScriptHost.Text.Printable
import ScriptHost.Text.Quoted
import ScriptHost.Text.Sorted
import ScriptHost.Text.Utf8
import ScriptHost.Values.Arity
import ScriptHost.Values.Looks
import ScriptHost.Values.Operate
import ScriptHost.Values.Shown
import ScriptHost.World
import ScriptHost.Proofs.Blocks
import ScriptHost.Proofs.Outcome
import ScriptHost.Proofs.Leads
import ScriptHost.Proofs.Alike
import ScriptHost.Proofs.Follows
import ScriptHost.Proofs.Border
import ScriptHost.Proofs.Subscriptions
import ScriptHost.Proofs.Steps
import ScriptHost.Proofs.Loads
import ScriptHost.Proofs.Lifetimes
import ScriptHost.Proofs.Requests
import ScriptHost.Proofs.Answers
import ScriptHost.Proofs.Containment
import ScriptHost.Proofs.Chronicle
import ScriptHost.Proofs.Coherence
import ScriptHost.Proofs.HandOver
import ScriptHost.Proofs.Registry
import ScriptHost.Proofs.Invariants
import ScriptHost.Proofs.Books
import ScriptHost.Proofs.Reports
import ScriptHost.Proofs.Attachment
import ScriptHost.Proofs.Steadiness
import ScriptHost.Proofs.Tenure
import ScriptHost.Proofs.Bindings
import ScriptHost.Proofs.Discovery
import ScriptHost.Proofs.Renewal
import ScriptHost.Proofs.Unloading
import ScriptHost.Proofs.Emissions
import ScriptHost.Proofs.Listening
import ScriptHost.Proofs.Realm
import ScriptHost.Proofs.Confinement
import ScriptHost.Proofs.Basics
import ScriptHost.Proofs.Libraries
import ScriptHost.Proofs.Machines
import ScriptHost.Proofs.Enclosure
import ScriptHost.Proofs.Sandbox
import ScriptHost.Proofs.Paths
import ScriptHost.Proofs.Searches
import ScriptHost.Proofs.Replies
import ScriptHost.Proofs.Slots
import ScriptHost.Proofs.Offers
import ScriptHost.Proofs.Provision
import ScriptHost.Proofs.Watching
import ScriptHost.Proofs.Finding
import ScriptHost.Proofs.Accounts
import ScriptHost.Proofs.Departures
import ScriptHost.Proofs.Arrivals
import ScriptHost.Proofs.Reloading
import ScriptHost.Proofs.Confluence
import ScriptHost.Proofs.Installing
import ScriptHost.Proofs.Signals
import ScriptHost.Proofs.Errands
import ScriptHost.Proofs.Words
import ScriptHost.Proofs.Lines
import ScriptHost.Proofs.Advertisements
import ScriptHost.Proofs.Exposures
import ScriptHost.Proofs.Admission
import ScriptHost.Proofs.Firing
import ScriptHost.Proofs.Overlays
import ScriptHost.Proofs.Gaps
import ScriptHost.Proofs.Marshalling
import ScriptHost.Proofs.Arguments
