import RegisterBank.Access
import RegisterBank.Bank.Bridge
import RegisterBank.Bank.Circuit
import RegisterBank.Bank.Emission
import RegisterBank.Bank.Machine
import RegisterBank.Bank.Plan
import RegisterBank.Bank.Template
import RegisterBank.Bank.Transaction
import RegisterBank.BitRange
import RegisterBank.Bits
import RegisterBank.Bus.FrontEnd
import RegisterBank.Bus.Protocol
import RegisterBank.Configuration
import RegisterBank.Document.Format
import RegisterBank.Document.Json.Printer
import RegisterBank.Document.Json.Problem
import RegisterBank.Document.Json.Reader
import RegisterBank.Document.Place
import RegisterBank.Document.Standard
import RegisterBank.Document.Toml.Number
import RegisterBank.Document.Toml.Outline
import RegisterBank.Document.Toml.Printer
import RegisterBank.Document.Toml.Quoted
import RegisterBank.Document.Toml.Reader
import RegisterBank.Document.Toml.Step
import RegisterBank.Document.Tree
import RegisterBank.Error
import RegisterBank.Field
import RegisterBank.Files.Directory
import RegisterBank.Files.Documents
import RegisterBank.Files.Event
import RegisterBank.Files.Memory
import RegisterBank.Files.Outputs
import RegisterBank.Files.Path
import RegisterBank.Files.Session
import RegisterBank.Layout
import RegisterBank.NamingCase
import RegisterBank.Number.Binary64
import RegisterBank.Number.Shortest
import RegisterBank.Proofs.Bank.Accepted
import RegisterBank.Proofs.Bank.AddressSpace
import RegisterBank.Proofs.Bank.Blocks
import RegisterBank.Proofs.Bank.BusIndependence
import RegisterBank.Proofs.Bank.Channels
import RegisterBank.Proofs.Bank.Collisions
import RegisterBank.Proofs.Bank.Declarations
import RegisterBank.Proofs.Bank.Drivers
import RegisterBank.Proofs.Bank.FieldRequests
import RegisterBank.Proofs.Bank.FieldRuns
import RegisterBank.Proofs.Bank.Fitting
import RegisterBank.Proofs.Bank.Held
import RegisterBank.Proofs.Bank.Invariant
import RegisterBank.Proofs.Bank.LastWriter
import RegisterBank.Proofs.Bank.LegalStates
import RegisterBank.Proofs.Bank.Lockstep
import RegisterBank.Proofs.Bank.Names
import RegisterBank.Proofs.Bank.Paired
import RegisterBank.Proofs.Bank.ReadClear
import RegisterBank.Proofs.Bank.ReadMultiplexer
import RegisterBank.Proofs.Bank.ReadResponse
import RegisterBank.Proofs.Bank.ReadWord
import RegisterBank.Proofs.Bank.ResetBranches
import RegisterBank.Proofs.Bank.ResetHistory
import RegisterBank.Proofs.Bank.ResetValues
import RegisterBank.Proofs.Bank.Runs
import RegisterBank.Proofs.Bank.Scoping
import RegisterBank.Proofs.Bank.Segments
import RegisterBank.Proofs.Bank.SelfClearing
import RegisterBank.Proofs.Bank.Settled
import RegisterBank.Proofs.Bank.Signals
import RegisterBank.Proofs.Bank.StickyInputs
import RegisterBank.Proofs.Bank.StoredFields
import RegisterBank.Proofs.Bank.Transfers
import RegisterBank.Proofs.Bank.UnselectedBytes
import RegisterBank.Proofs.Bank.Widths
import RegisterBank.Proofs.Bank.WriteOnce
import RegisterBank.Proofs.Bits
import RegisterBank.Proofs.Construction.FieldCalls
import RegisterBank.Proofs.Construction.FieldLists
import RegisterBank.Proofs.Construction.Fields
import RegisterBank.Proofs.Construction.Maps
import RegisterBank.Proofs.Construction.OptionTable
import RegisterBank.Proofs.Construction.Options
import RegisterBank.Proofs.Construction.ResetValue
import RegisterBank.Proofs.Construction.SameAnswers
import RegisterBank.Proofs.Construction.StoredOptions
import RegisterBank.Proofs.Construction.Workbench
import RegisterBank.Proofs.Document.Digits
import RegisterBank.Proofs.Document.Entries
import RegisterBank.Proofs.Document.Faithful
import RegisterBank.Proofs.Document.Json.RoundTrip
import RegisterBank.Proofs.Document.Json.Tokens
import RegisterBank.Proofs.Document.Placed
import RegisterBank.Proofs.Document.Plain
import RegisterBank.Proofs.Document.RoundTrip
import RegisterBank.Proofs.Document.Sorted
import RegisterBank.Proofs.Document.Toml.Assembly
import RegisterBank.Proofs.Document.Toml.Lines
import RegisterBank.Proofs.Document.Toml.Numbers
import RegisterBank.Proofs.Document.Toml.Quotes
import RegisterBank.Proofs.Document.Toml.Statements
import RegisterBank.Proofs.Document.Toml.Texts
import RegisterBank.Proofs.Document.Toml.Values
import RegisterBank.Proofs.Files.Actions
import RegisterBank.Proofs.Files.Memory
import RegisterBank.Proofs.Files.Operations
import RegisterBank.Proofs.Files.Paths
import RegisterBank.Proofs.Files.Skipping
import RegisterBank.Proofs.Layout.Documented
import RegisterBank.Proofs.Layout.Failures
import RegisterBank.Proofs.Layout.Placement
import RegisterBank.Proofs.Layout.Stability
import RegisterBank.Proofs.Reference.Pages
import RegisterBank.Proofs.Reference.Rows
import RegisterBank.Proofs.Reference.Tables
import RegisterBank.Proofs.Results
import RegisterBank.Proofs.Schema.ConfigKeys
import RegisterBank.Proofs.Schema.ConfigRoundTrip
import RegisterBank.Proofs.Schema.ConfigSpellings
import RegisterBank.Proofs.Schema.Locations
import RegisterBank.Proofs.Schema.MapFaults
import RegisterBank.Proofs.Schema.MapReading
import RegisterBank.Proofs.Schema.MapRoundTrip
import RegisterBank.Proofs.Text.Characters
import RegisterBank.Proofs.Text.Constants
import RegisterBank.Proofs.Text.Identifiers
import RegisterBank.Proofs.Text.Integers
import RegisterBank.Proofs.Text.NamingCases
import RegisterBank.Proofs.Text.Notations
import RegisterBank.Proofs.Text.Order
import RegisterBank.Proofs.Text.Positions
import RegisterBank.Proofs.Text.SnakeCase
import RegisterBank.Proofs.Verilog.Code
import RegisterBank.Proofs.Verilog.Edges
import RegisterBank.Proofs.Verilog.Modules
import RegisterBank.Proofs.Verilog.Scope
import RegisterBank.Proofs.Verilog.Settling
import RegisterBank.Proofs.Verilog.Statements
import RegisterBank.Proofs.Verilog.Tokens
import RegisterBank.Reference.Markdown
import RegisterBank.Reference.Page
import RegisterBank.Register
import RegisterBank.RegisterMap
import RegisterBank.ResetStyle
import RegisterBank.Schema.ConfigDocument
import RegisterBank.Schema.Expect
import RegisterBank.Schema.MapDocument
import RegisterBank.Setting
import RegisterBank.Text.Blank
import RegisterBank.Text.HexDigits
import RegisterBank.Text.Identifier
import RegisterBank.Text.Integer
import RegisterBank.Text.Order
import RegisterBank.Text.Position
import RegisterBank.Text.Quoted
import RegisterBank.Text.SnakeCase
import RegisterBank.Text.Unprintable
import RegisterBank.Verilog.Keyword
import RegisterBank.Verilog.Meaning
import RegisterBank.Verilog.Module
import RegisterBank.Verilog.Nets
import RegisterBank.Verilog.Printer
