import KernelGrid.Arena
import KernelGrid.CommandLine.Arguments
import KernelGrid.CommandLine.Program
import KernelGrid.CommandLine.Value
import KernelGrid.Error
import KernelGrid.Grammar.Capability
import KernelGrid.Grammar.Decoration
import KernelGrid.Grammar.Enumerant
import KernelGrid.Grammar.ExecutionModel
import KernelGrid.Grammar.Form
import KernelGrid.Grammar.MemoryModel
import KernelGrid.Grammar.Opcode
import KernelGrid.Grammar.OpcodeTable
import KernelGrid.Grammar.StorageClass
import KernelGrid.Inst.Basic
import KernelGrid.Inst.Item
import KernelGrid.Inst.Operand
import KernelGrid.Inst.Statement
import KernelGrid.Kernel.Buffer
import KernelGrid.Kernel.Cell
import KernelGrid.Kernel.ComputePreamble
import KernelGrid.Kernel.Entry
import KernelGrid.Kernel.Error
import KernelGrid.Kernel.GlobalBlock
import KernelGrid.Kernel.Host
import KernelGrid.Kernel.Journal
import KernelGrid.Kernel.Lowering
import KernelGrid.Kernel.Metadata
import KernelGrid.Kernel.Signature
import KernelGrid.Main
import KernelGrid.Module.Assembly
import KernelGrid.Module.Basic
import KernelGrid.Module.Builder
import KernelGrid.Module.ByteSize
import KernelGrid.Module.Debug
import KernelGrid.Module.Decorations
import KernelGrid.Module.Encoding
import KernelGrid.Module.Interning
import KernelGrid.Module.Listing
import KernelGrid.Module.Pass
import KernelGrid.Module.Preamble
import KernelGrid.Module.Validation
import KernelGrid.Proofs.CommandLine.KernelArguments
import KernelGrid.Proofs.Inst.Codec
import KernelGrid.Proofs.Inst.Item
import KernelGrid.Proofs.Inst.Pattern
import KernelGrid.Proofs.Inst.Reading
import KernelGrid.Proofs.Inst.Traversal
import KernelGrid.Proofs.Kernel.Allocations
import KernelGrid.Proofs.Kernel.Bindings
import KernelGrid.Proofs.Kernel.BlockDecoration
import KernelGrid.Proofs.Kernel.BuilderCommands
import KernelGrid.Proofs.Kernel.BuilderDiscipline
import KernelGrid.Proofs.Kernel.BuilderMoves
import KernelGrid.Proofs.Kernel.BuiltInVariables
import KernelGrid.Proofs.Kernel.CallTypes
import KernelGrid.Proofs.Kernel.CellCode
import KernelGrid.Proofs.Kernel.CodeRules
import KernelGrid.Proofs.Kernel.Collisions
import KernelGrid.Proofs.Kernel.Conservation
import KernelGrid.Proofs.Kernel.DataFlow
import KernelGrid.Proofs.Kernel.DebugOrder
import KernelGrid.Proofs.Kernel.EditRules
import KernelGrid.Proofs.Kernel.EntryCode
import KernelGrid.Proofs.Kernel.EntryPoint
import KernelGrid.Proofs.Kernel.Execution
import KernelGrid.Proofs.Kernel.ExplicitLayout
import KernelGrid.Proofs.Kernel.FreshIds
import KernelGrid.Proofs.Kernel.GlobalBlock
import KernelGrid.Proofs.Kernel.GridOrder
import KernelGrid.Proofs.Kernel.HandleSafety
import KernelGrid.Proofs.Kernel.Independence
import KernelGrid.Proofs.Kernel.IndexLaw
import KernelGrid.Proofs.Kernel.Interfaces
import KernelGrid.Proofs.Kernel.Interning
import KernelGrid.Proofs.Kernel.Layout
import KernelGrid.Proofs.Kernel.Metadata
import KernelGrid.Proofs.Kernel.ModuleRules
import KernelGrid.Proofs.Kernel.Numbering
import KernelGrid.Proofs.Kernel.Operations
import KernelGrid.Proofs.Kernel.Output
import KernelGrid.Proofs.Kernel.Ports
import KernelGrid.Proofs.Kernel.Preamble
import KernelGrid.Proofs.Kernel.Reloading
import KernelGrid.Proofs.Kernel.Requirements
import KernelGrid.Proofs.Kernel.Rulings
import KernelGrid.Proofs.Kernel.Slots
import KernelGrid.Proofs.Kernel.SoundCode
import KernelGrid.Proofs.Kernel.SoundEdits
import KernelGrid.Proofs.Kernel.Spacing
import KernelGrid.Proofs.Kernel.Stages
import KernelGrid.Proofs.Kernel.UseOrder
import KernelGrid.Proofs.Kernel.Variables
import KernelGrid.Proofs.Module.Acceptance
import KernelGrid.Proofs.Module.Additions
import KernelGrid.Proofs.Module.Annotations
import KernelGrid.Proofs.Module.Arrangement
import KernelGrid.Proofs.Module.Assembly
import KernelGrid.Proofs.Module.Building
import KernelGrid.Proofs.Module.ByteSizes
import KernelGrid.Proofs.Module.Changes
import KernelGrid.Proofs.Module.Consolidation
import KernelGrid.Proofs.Module.Containment
import KernelGrid.Proofs.Module.Contents
import KernelGrid.Proofs.Module.Declarations
import KernelGrid.Proofs.Module.Decoded
import KernelGrid.Proofs.Module.Editing
import KernelGrid.Proofs.Module.Emission
import KernelGrid.Proofs.Module.EmittedPlaces
import KernelGrid.Proofs.Module.EmittedRecords
import KernelGrid.Proofs.Module.ExactSizes
import KernelGrid.Proofs.Module.Findings
import KernelGrid.Proofs.Module.FixedPoints
import KernelGrid.Proofs.Module.Grammar
import KernelGrid.Proofs.Module.Handles
import KernelGrid.Proofs.Module.Identifiers
import KernelGrid.Proofs.Module.Intake
import KernelGrid.Proofs.Module.Listings
import KernelGrid.Proofs.Module.Lookups
import KernelGrid.Proofs.Module.Normalization
import KernelGrid.Proofs.Module.Outline
import KernelGrid.Proofs.Module.Places
import KernelGrid.Proofs.Module.Reassembly
import KernelGrid.Proofs.Module.Rereading
import KernelGrid.Proofs.Module.Resolution
import KernelGrid.Proofs.Module.RoundTrip
import KernelGrid.Proofs.Module.SectionOrder
import KernelGrid.Proofs.Module.Settling
import KernelGrid.Proofs.Module.Soundness
import KernelGrid.Proofs.Module.StaticUses
import KernelGrid.Proofs.Module.StorageClasses
import KernelGrid.Proofs.Module.TypeDeclarations
import KernelGrid.Proofs.Module.TypeSizes
import KernelGrid.Proofs.Module.Validity
import KernelGrid.Proofs.Module.WorkGroups
import KernelGrid.Proofs.Runs
import KernelGrid.Proofs.Stream.Accounting
import KernelGrid.Proofs.Stream.ByteOrder
import KernelGrid.Proofs.Stream.Framing
import KernelGrid.Proofs.Stream.Literal
import KernelGrid.Proofs.Stream.Reader
import KernelGrid.Proofs.Stream.StringReads
import KernelGrid.Proofs.Text.Numeral
import KernelGrid.Proofs.Text.Pieces
import KernelGrid.Proofs.Text.Visible
import KernelGrid.Proofs.Word
import KernelGrid.Stream.Bytes
import KernelGrid.Stream.Cursor
import KernelGrid.Stream.Literal
import KernelGrid.Stream.Record
import KernelGrid.Text.Numeral
import KernelGrid.Text.Pieces
import KernelGrid.Text.Quoted
import KernelGrid.Text.Unprintable
import KernelGrid.Word
