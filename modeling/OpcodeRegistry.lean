import OpcodeRegistry.Code
import OpcodeRegistry.Text.Digits
import OpcodeRegistry.Text.CharClass
import OpcodeRegistry.Text.Notation
import OpcodeRegistry.Text.Scan
import OpcodeRegistry.Mnemonic
import OpcodeRegistry.Source
import OpcodeRegistry.Extraction.Definition
import OpcodeRegistry.Extraction.Accumulator
import OpcodeRegistry.Extraction.Basic
import OpcodeRegistry.Files
import OpcodeRegistry.Log.Event
import OpcodeRegistry.Table.Entry
import OpcodeRegistry.Table.Draft
import OpcodeRegistry.Table.Basic
import OpcodeRegistry.Extraction.Table
import OpcodeRegistry.Listing.Render
import OpcodeRegistry.Toml.Value
import OpcodeRegistry.Toml.Blank
import OpcodeRegistry.Toml.Quoted
import OpcodeRegistry.Toml.Number
import OpcodeRegistry.Toml.DateTime
import OpcodeRegistry.Toml.Tree
import OpcodeRegistry.Toml.Reader
import OpcodeRegistry.Toml.Document
import OpcodeRegistry.Listing.Load
import OpcodeRegistry.Comparison
import OpcodeRegistry.Architecture.OpcodeSet
import OpcodeRegistry.Architecture.Beam
import OpcodeRegistry.Architecture.PyVm
import OpcodeRegistry.Architecture.Basic
import OpcodeRegistry.Log.Filter
import OpcodeRegistry.Command.Arguments
import OpcodeRegistry.Command.Query
import OpcodeRegistry.Command.Failure
import OpcodeRegistry.Command.Run
import OpcodeRegistry.Main
import OpcodeRegistry.Proofs.CodeOrder
import OpcodeRegistry.Proofs.Table.Index
import OpcodeRegistry.Proofs.Table.Acceptance
import OpcodeRegistry.Proofs.Table.Draft
import OpcodeRegistry.Proofs.Table.Invariant
import OpcodeRegistry.Proofs.Table.Order
import OpcodeRegistry.Proofs.Table.Contract
import OpcodeRegistry.Proofs.Table.Extension
import OpcodeRegistry.Proofs.Table.Offence
import OpcodeRegistry.Proofs.Extraction.History
import OpcodeRegistry.Proofs.Extraction.Overwrite
import OpcodeRegistry.Proofs.Extraction.Strictness
import OpcodeRegistry.Proofs.Extraction.Refusing
import OpcodeRegistry.Proofs.Text.Value
import OpcodeRegistry.Proofs.Source.Clause
import OpcodeRegistry.Proofs.Extraction.Classification
import OpcodeRegistry.Proofs.Extraction.Mnemonic
import OpcodeRegistry.Proofs.Command.Arguments
import OpcodeRegistry.Proofs.Command.Strictness
import OpcodeRegistry.Proofs.Comparison
import OpcodeRegistry.Proofs.Table.Reordering
import OpcodeRegistry.Proofs.Text.Numeral
import OpcodeRegistry.Proofs.Text.Lines
import OpcodeRegistry.Proofs.Source.Lines
import OpcodeRegistry.Proofs.Toml.Assignment
import OpcodeRegistry.Proofs.Toml.Document
import OpcodeRegistry.Proofs.Toml.DistinctKeys
import OpcodeRegistry.Proofs.Listing.Reading
import OpcodeRegistry.Proofs.Listing.Inference
import OpcodeRegistry.Proofs.Listing.Families
import OpcodeRegistry.Proofs.Listing.RoundTrip
import OpcodeRegistry.Proofs.Listing.Loading
import OpcodeRegistry.Proofs.Extraction.Table
import OpcodeRegistry.Proofs.Extraction.Objection
import OpcodeRegistry.Proofs.Table.Width
import OpcodeRegistry.Proofs.Table.Redeclaration
import OpcodeRegistry.Proofs.Listing.VariantName
import OpcodeRegistry.Proofs.Listing.NormalForm
import OpcodeRegistry.Proofs.Listing.Lines
import OpcodeRegistry.Proofs.Listing.Fields
import OpcodeRegistry.Proofs.Listing.Alignment
import OpcodeRegistry.Proofs.Listing.Decoding
import OpcodeRegistry.Proofs.Extraction.Variants
import OpcodeRegistry.Proofs.Command.Query
import OpcodeRegistry.Proofs.CodeWidth
import OpcodeRegistry.Proofs.Extraction.Stopping
import OpcodeRegistry.Proofs.Extraction.Account
import OpcodeRegistry.Proofs.Architecture.Agreement
import OpcodeRegistry.Proofs.Command.Verification
import OpcodeRegistry.Proofs.Command.Lookup
import OpcodeRegistry.Proofs.Extraction.Endings
import OpcodeRegistry.Proofs.Extraction.Reordering
import OpcodeRegistry.Proofs.Extraction.Log
import OpcodeRegistry.Proofs.Extraction.Survivors
