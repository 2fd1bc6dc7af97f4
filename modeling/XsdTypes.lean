import XsdTypes.Chars.Blank
import XsdTypes.Chars.Numeral
import XsdTypes.Chars.Split
import XsdTypes.Chars.Utf8
import XsdTypes.Command.Arguments
import XsdTypes.Command.Flag
import XsdTypes.Command.Run
import XsdTypes.Compile
import XsdTypes.Config.Decode
import XsdTypes.Config.File
import XsdTypes.Config.Json
import XsdTypes.Config.Options
import XsdTypes.Config.Value
import XsdTypes.Config.Yaml.Document
import XsdTypes.Config.Yaml.Scalar
import XsdTypes.Config.Yaml.Spot
import XsdTypes.Config.Yaml.Token
import XsdTypes.Fetch.Options
import XsdTypes.Fetch.Source
import XsdTypes.Files.Disk
import XsdTypes.Files.Fault
import XsdTypes.Files.System
import XsdTypes.Lowering.Expansion
import XsdTypes.Lowering.Export
import XsdTypes.Lowering.Members
import XsdTypes.Lowering.Path
import XsdTypes.Lowering.Target
import XsdTypes.Lowering.Types
import XsdTypes.Main
import XsdTypes.Markup.Attribute
import XsdTypes.Markup.Fault
import XsdTypes.Markup.Reference
import XsdTypes.Markup.Stream
import XsdTypes.Model.Basic
import XsdTypes.Model.Decl
import XsdTypes.Model.Identifier
import XsdTypes.Model.Imports
import XsdTypes.Model.Naming
import XsdTypes.Model.Primitive
import XsdTypes.Model.Walk
import XsdTypes.Name.Bindings
import XsdTypes.Name.QName
import XsdTypes.Output.Staging
import XsdTypes.Place.Domain.Ascii
import XsdTypes.Place.Domain.Composition
import XsdTypes.Place.Domain.Direction
import XsdTypes.Place.Domain.Joining
import XsdTypes.Place.Domain.Mapping
import XsdTypes.Place.Domain.Marks
import XsdTypes.Place.Domain.Punycode
import XsdTypes.Place.Domain.Table
import XsdTypes.Place.Domain.Valid
import XsdTypes.Place.Host
import XsdTypes.Place.Percent
import XsdTypes.Place.Resolve
import XsdTypes.Place.UnixPath
import XsdTypes.Place.Url
import XsdTypes.Schema.Builtin
import XsdTypes.Schema.Error
import XsdTypes.Schema.Graph
import XsdTypes.Schema.Loading
import XsdTypes.Schema.Node
import XsdTypes.Schema.Occurrence
import XsdTypes.Schema.Opening
import XsdTypes.Schema.Reading
import XsdTypes.Schema.Resolution
import XsdTypes.Schema.Scope
import XsdTypes.Schema.Tag
import XsdTypes.Script.Comment
import XsdTypes.Script.Render
import XsdTypes.Source.Location
import XsdTypes.Text.Basic
import XsdTypes.Text.Fresh
import XsdTypes.Text.Quoted
import XsdTypes.Text.Table
import XsdTypes.Proofs.Schema.Absorption
import XsdTypes.Proofs.Schema.ScopeIndex
import XsdTypes.Proofs.Schema.Updates
import XsdTypes.Proofs.Schema.WellFormed
import XsdTypes.Proofs.Schema.Edits
import XsdTypes.Proofs.Schema.Extension
import XsdTypes.Proofs.Sequencing
import XsdTypes.Proofs.Repeats
import XsdTypes.Proofs.Schema.Plan
import XsdTypes.Proofs.Schema.Sound
import XsdTypes.Proofs.Schema.Reading
import XsdTypes.Proofs.Schema.Initial
import XsdTypes.Proofs.Schema.Loading
import XsdTypes.Proofs.Schema.Lookup
import XsdTypes.Proofs.Schema.Resolution
import XsdTypes.Proofs.Schema.Structure
import XsdTypes.Proofs.Schema.Binding
import XsdTypes.Proofs.Markup.Openings
import XsdTypes.Proofs.Schema.Documents
import XsdTypes.Proofs.Schema.Placement
import XsdTypes.Proofs.Schema.Loaded
import XsdTypes.Proofs.Schema.Reordering
import XsdTypes.Proofs.Schema.Reached
import XsdTypes.Proofs.Schema.Redefinitions
import XsdTypes.Proofs.Schema.History
import XsdTypes.Proofs.Schema.Requests
import XsdTypes.Proofs.Schema.Prefixes
import XsdTypes.Proofs.Schema.Retention
import XsdTypes.Proofs.Schema.Overlay
import XsdTypes.Proofs.Schema.Skipping
import XsdTypes.Proofs.Schema.Chameleon
import XsdTypes.Proofs.Schema.Announced
import XsdTypes.Proofs.Schema.Adoption
import XsdTypes.Proofs.Schema.Fetching
import XsdTypes.Proofs.Schema.Inclusion
import XsdTypes.Proofs.Schema.Latency
import XsdTypes.Proofs.Text.Segments
import XsdTypes.Proofs.Place.Normal
import XsdTypes.Proofs.Place.Canonical
import XsdTypes.Proofs.Schema.Spelling
import XsdTypes.Proofs.Lowering.Build
import XsdTypes.Proofs.Lowering.ModulePath
import XsdTypes.Proofs.Model.Sound
import XsdTypes.Proofs.Lowering.NamedTypes
import XsdTypes.Proofs.Lowering.Outline
import XsdTypes.Proofs.Lowering.Folding
import XsdTypes.Proofs.Lowering.Target
import XsdTypes.Proofs.Lowering.Totals
import XsdTypes.Proofs.Lowering.Types
import XsdTypes.Proofs.Lowering.Steps
import XsdTypes.Proofs.Lowering.Export
import XsdTypes.Proofs.Lowering.Termination
import XsdTypes.Proofs.Model.Traversal
import XsdTypes.Proofs.Name.Bindings
import XsdTypes.Proofs.Model.Walk
import XsdTypes.Proofs.Text.Fresh
import XsdTypes.Proofs.Model.Naming
import XsdTypes.Proofs.Model.Imports
import XsdTypes.Proofs.Model.Reserved
import XsdTypes.Proofs.Model.Identifiers
import XsdTypes.Proofs.Model.ImportLists
import XsdTypes.Proofs.Model.RelativePath
import XsdTypes.Proofs.Model.Renaming
import XsdTypes.Proofs.Files.Disk
import XsdTypes.Proofs.Output.Staging
import XsdTypes.Proofs.Output.Collected
import XsdTypes.Proofs.Script.References
import XsdTypes.Proofs.Script.Parts
import XsdTypes.Proofs.Script.Rendering
import XsdTypes.Proofs.Script.ImportUse
import XsdTypes.Proofs.Schema.Occurrence
import XsdTypes.Proofs.Schema.Ranges
import XsdTypes.Proofs.Schema.Capping
import XsdTypes.Proofs.Schema.Content
import XsdTypes.Proofs.Schema.Particles
import XsdTypes.Proofs.Schema.Nesting
import XsdTypes.Proofs.Schema.Words
import XsdTypes.Proofs.Lowering.Flattening
import XsdTypes.Proofs.Lowering.Encounters
import XsdTypes.Proofs.Schema.Scanning
import XsdTypes.Proofs.Schema.Merging
import XsdTypes.Proofs.Schema.Roots
import XsdTypes.Proofs.Script.Comment
