import ScriptWasm.Analysis.Check
import ScriptWasm.Analysis.RoutineEnv
import ScriptWasm.Build.Compiler
import ScriptWasm.Build.Front
import ScriptWasm.CommandLine.Run
import ScriptWasm.CommandLine.Usage
import ScriptWasm.Diagnostic.Basic
import ScriptWasm.Diagnostic.Form
import ScriptWasm.Digest.Sha256
import ScriptWasm.Emission.Assemble
import ScriptWasm.Emission.Error
import ScriptWasm.Emission.Lower
import ScriptWasm.Emission.Metadata
import ScriptWasm.Emission.Prepare
import ScriptWasm.Emission.Tables
import ScriptWasm.Files.Basic
import ScriptWasm.Files.Path
import ScriptWasm.Files.Tree
import ScriptWasm.Json.Decoder
import ScriptWasm.Json.Fault
import ScriptWasm.Json.Problem
import ScriptWasm.Json.Reader
import ScriptWasm.Json.Scan
import ScriptWasm.Json.Skip
import ScriptWasm.Json.Source
import ScriptWasm.Json.Value
import ScriptWasm.Library.Discovery
import ScriptWasm.Library.Manifest
import ScriptWasm.Library.Operators
import ScriptWasm.Library.Package
import ScriptWasm.Library.Registry
import ScriptWasm.Library.Scan
import ScriptWasm.Main
import ScriptWasm.Number.Binary64
import ScriptWasm.Number.Decimal
import ScriptWasm.Program.Basic
import ScriptWasm.Program.Form
import ScriptWasm.Program.Parse
import ScriptWasm.Proofs.Analysis.Alike
import ScriptWasm.Proofs.Analysis.Order
import ScriptWasm.Proofs.Analysis.Symbols
import ScriptWasm.Proofs.Analysis.Verdict
import ScriptWasm.Proofs.Build.Outcome
import ScriptWasm.Proofs.Build.Packaging
import ScriptWasm.Proofs.Build.Writing
import ScriptWasm.Proofs.Emission.Acceptance
import ScriptWasm.Proofs.Emission.Alike
import ScriptWasm.Proofs.Emission.Canonical
import ScriptWasm.Proofs.Emission.Declarations
import ScriptWasm.Proofs.Emission.Demand
import ScriptWasm.Proofs.Emission.Description
import ScriptWasm.Proofs.Emission.Finished
import ScriptWasm.Proofs.Emission.Growth
import ScriptWasm.Proofs.Emission.Imports
import ScriptWasm.Proofs.Emission.Labels
import ScriptWasm.Proofs.Emission.Locals
import ScriptWasm.Proofs.Emission.Resolution
import ScriptWasm.Proofs.Emission.Slots
import ScriptWasm.Proofs.Emission.Subroutines
import ScriptWasm.Proofs.Emission.Texts
import ScriptWasm.Proofs.Execution.Counting
import ScriptWasm.Proofs.Execution.Direct
import ScriptWasm.Proofs.Execution.Effects
import ScriptWasm.Proofs.Execution.Elements
import ScriptWasm.Proofs.Execution.Expressions
import ScriptWasm.Proofs.Execution.Jumps
import ScriptWasm.Proofs.Execution.Layout
import ScriptWasm.Proofs.Execution.Machine
import ScriptWasm.Proofs.Execution.Preservation
import ScriptWasm.Proofs.Execution.Readings
import ScriptWasm.Proofs.Execution.Routines
import ScriptWasm.Proofs.Execution.Statements
import ScriptWasm.Proofs.Files.Additions
import ScriptWasm.Proofs.Files.Changes
import ScriptWasm.Proofs.Files.Locations
import ScriptWasm.Proofs.Files.Paths
import ScriptWasm.Proofs.Files.Trees
import ScriptWasm.Proofs.Json.Lawful
import ScriptWasm.Proofs.Json.Numbers
import ScriptWasm.Proofs.Json.Reading
import ScriptWasm.Proofs.Json.Results
import ScriptWasm.Proofs.Json.Strings
import ScriptWasm.Proofs.Json.Written
import ScriptWasm.Proofs.Library.Binding
import ScriptWasm.Proofs.Library.Discovering
import ScriptWasm.Proofs.Library.Operations
import ScriptWasm.Proofs.Library.Packing
import ScriptWasm.Proofs.Library.Scanning
import ScriptWasm.Proofs.Program.Alike
import ScriptWasm.Proofs.Program.Parts
import ScriptWasm.Proofs.Program.RoundTrip
import ScriptWasm.Proofs.Program.SourceForms
import ScriptWasm.Proofs.Sequencing
import ScriptWasm.Proofs.Source.Lines
import ScriptWasm.Proofs.Text.Pieces
import ScriptWasm.Proofs.Text.Utf8
import ScriptWasm.Proofs.Typing.Agreement
import ScriptWasm.Proofs.Typing.Bounds
import ScriptWasm.Proofs.Typing.Contexts
import ScriptWasm.Proofs.Typing.Emitted
import ScriptWasm.Proofs.Typing.Expressions
import ScriptWasm.Proofs.Typing.Rules
import ScriptWasm.Proofs.Typing.Statements
import ScriptWasm.Proofs.Wasm.Framing
import ScriptWasm.Proofs.Wasm.Nesting
import ScriptWasm.Source.Span
import ScriptWasm.Source.Text
import ScriptWasm.Text.Bytes
import ScriptWasm.Text.Case
import ScriptWasm.Text.CodePoints
import ScriptWasm.Text.Hex
import ScriptWasm.Text.Lowercase
import ScriptWasm.Text.Quoted
import ScriptWasm.Text.Similarity
import ScriptWasm.Text.Slice
import ScriptWasm.Text.Split
import ScriptWasm.Text.Terminal
import ScriptWasm.Text.Visible
import ScriptWasm.Wasm.Assignment
import ScriptWasm.Wasm.Binary
import ScriptWasm.Wasm.Component.Decode
import ScriptWasm.Wasm.Component.Entity
import ScriptWasm.Wasm.Component.Name
import ScriptWasm.Wasm.Component.Syntax
import ScriptWasm.Wasm.Component.Validity
import ScriptWasm.Wasm.Container
import ScriptWasm.Wasm.Decode
import ScriptWasm.Wasm.Encode
import ScriptWasm.Wasm.Instr
import ScriptWasm.Wasm.Leb128
import ScriptWasm.Wasm.Opcode
import ScriptWasm.Wasm.Section
import ScriptWasm.Wasm.Take
import ScriptWasm.Wasm.TypeSpace
import ScriptWasm.Wasm.Types
import ScriptWasm.Wasm.Typing
import ScriptWasm.Wasm.Validity
