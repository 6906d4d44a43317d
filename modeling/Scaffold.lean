import Scaffold.Attributes
import Scaffold.ColumnType
import Scaffold.Storage
import Scaffold.Association.Kind
import Scaffold.Naming.Plural
import Scaffold.Text.Blank
import Scaffold.Text.Quoted
import Scaffold.Decimal.Binary64
import Scaffold.Decimal.Shortest
import Scaffold.Json.Token
import Scaffold.Json.Tree
import Scaffold.Definition.Basic
import Scaffold.Definition.Fault
import Scaffold.Definition.Reader
import Scaffold.Failure
import Scaffold.Association.Basic
import Scaffold.Association.Classification
import Scaffold.Entity
import Scaffold.Artifact.Resolvers
import Scaffold.Artifact.Schema
import Scaffold.Artifact.Column
import Scaffold.Artifact.Migration
import Scaffold.Artifact.Model
import Scaffold.Artifact.RemoteModel
import Scaffold.Artifact.Rendering
import Scaffold.Artifact.Shared
import Scaffold.Calendar
import Scaffold.Migration.Stamper
import Scaffold.Run.Report
import Scaffold.Files.Tree
import Scaffold.Run.Selection
import Scaffold.Run.Toolbox
import Scaffold.Decimal.Digits
import Scaffold.Decimal.Double
import Scaffold.Text.Utf8
import Scaffold.Toml.Value
import Scaffold.Toml.Scalar
import Scaffold.Toml.Token
import Scaffold.Toml.Document
import Scaffold.Json.Whole
import Scaffold.Settings.Given
import Scaffold.Settings.Layer
import Scaffold.Settings.Loading
import Scaffold.Run.Build
import Scaffold.CommandLine.Arguments
import Scaffold.CommandLine.Listing
import Scaffold.CommandLine.Ending
import Scaffold.Main
import Scaffold.Proofs.Except
import Scaffold.Proofs.Dict
import Scaffold.Proofs.Json.Scan
import Scaffold.Proofs.Json.Document
import Scaffold.Proofs.Json.Records
import Scaffold.Proofs.Definition.RoundTrip
import Scaffold.Proofs.Text.ByteOrder
import Scaffold.Proofs.Calendar.Order
import Scaffold.Proofs.Calendar.Stamp
import Scaffold.Proofs.Migration.Stamper
import Scaffold.Proofs.Run.Requests
import Scaffold.Proofs.Run.Naming
import Scaffold.Proofs.Run.MigrationOrder
import Scaffold.Proofs.Association.Partition
import Scaffold.Proofs.Run.Stepwise
import Scaffold.Proofs.Run.Count
import Scaffold.Proofs.Run.Writes
import Scaffold.Proofs.Run.LeftOut
import Scaffold.Proofs.Association.Skipping
import Scaffold.Proofs.Run.Skipping
import Scaffold.Proofs.Files.Below
import Scaffold.Proofs.Files.Following
import Scaffold.Proofs.Files.Writing
import Scaffold.Proofs.Run.Holding
import Scaffold.Proofs.Run.Sites
import Scaffold.Proofs.Run.OwnFiles
import Scaffold.Proofs.Text.Case
import Scaffold.Proofs.Artifact.AssociationFields
import Scaffold.Proofs.Artifact.Columns
import Scaffold.Proofs.Run.Migrations
import Scaffold.Proofs.Run.CreatedOnce
import Scaffold.Proofs.Run.IndexOrder
import Scaffold.Proofs.Text.AsciiCase
import Scaffold.Proofs.Naming.Segment
import Scaffold.Proofs.Naming.Endings
import Scaffold.Proofs.Naming.Capitalized
import Scaffold.Proofs.Artifact.TargetNames
import Scaffold.Proofs.Naming.Kept
import Scaffold.Proofs.Run.Contained
import Scaffold.Proofs.Run.References
import Scaffold.Proofs.Files.Changes
import Scaffold.Proofs.Run.FinalTree
import Scaffold.Proofs.Run.WithoutMigrations
import Scaffold.Proofs.Settings.Layers
import Scaffold.Proofs.CommandLine.Arguments
import Scaffold.Proofs.Run.Idle
import Scaffold.Proofs.CommandLine.NothingWritten
import Scaffold.Proofs.Json.Given
import Scaffold.Proofs.Definition.Declared
import Scaffold.Proofs.Source
import Scaffold.Proofs.Artifact.DeclarationOrder
import Scaffold.Proofs.Json.Lexemes
import Scaffold.Proofs.Json.Spelling
import Scaffold.Proofs.Json.RecordSpelling
import Scaffold.Proofs.Json.Written
import Scaffold.Proofs.Definition.Spelling
import Scaffold.Proofs.Association.Arities
import Scaffold.Proofs.Naming.Length
import Scaffold.Proofs.Artifact.Operations
import Scaffold.Proofs.Json.CutTokens
import Scaffold.Proofs.Json.CutOff
import Scaffold.Proofs.Json.CutReading
import Scaffold.Proofs.Definition.Damaged
import Scaffold.Proofs.Files.Entries
import Scaffold.Proofs.Files.Alike
import Scaffold.Proofs.Definition.Directory
import Scaffold.Proofs.Run.ListingOrder
import Scaffold.Proofs.Association.Refusal
import Scaffold.Proofs.Run.Demands
import Scaffold.Proofs.Run.Failures
import Scaffold.Proofs.Artifact.ForeignKeys
import Scaffold.Proofs.Artifact.JoinColumns
import Scaffold.Proofs.Artifact.SchemaNames
import Scaffold.Proofs.Run.JoinTables
import Scaffold.Proofs.Naming.LastWord
import Scaffold.Proofs.Run.ResolversIndex
import Scaffold.Proofs.Run.Selection
import Scaffold.Proofs.Toml.Keys
import Scaffold.Proofs.Settings.Fields
import Scaffold.Proofs.CommandLine.Precedence
import Scaffold.Proofs.Calendar.Embedding
import Scaffold.Proofs.Naming.Offsets
import Scaffold.Proofs.Decimal.Numerals
import Scaffold.Proofs.Settings.Arrival
