import ScriptAssembly.Build.Basic
import ScriptAssembly.Build.Error
import ScriptAssembly.Build.Schedule
import ScriptAssembly.Source.Checksum
import ScriptAssembly.Double.Basic
import ScriptAssembly.Double.Text
import ScriptAssembly.Draft.Basic
import ScriptAssembly.Draft.InPlace
import ScriptAssembly.Emission.Basic
import ScriptAssembly.Emission.Error
import ScriptAssembly.Emission.InPlace
import ScriptAssembly.Function.Basic
import ScriptAssembly.Function.Kind
import ScriptAssembly.Function.Opcodes
import ScriptAssembly.Linkage.Basic
import ScriptAssembly.Linkage.Describe
import ScriptAssembly.Linkage.Entry
import ScriptAssembly.Linkage.InPlace
import ScriptAssembly.Linkage.Refusal
import ScriptAssembly.Linkage.Registration
import ScriptAssembly.Linkage.Tables
import ScriptAssembly.Linkage.Sections
import ScriptAssembly.Linkage.WordIndexes
import ScriptAssembly.Literal.Basic
import ScriptAssembly.Opcode
import ScriptAssembly.Program.Builder
import ScriptAssembly.Program.Basic
import ScriptAssembly.Program.InPlace
import ScriptAssembly.Program.Listing
import ScriptAssembly.Program.Sink
import ScriptAssembly.Proofs.Builder
import ScriptAssembly.Proofs.Except
import ScriptAssembly.Proofs.Keys
import ScriptAssembly.Proofs.Lists
import ScriptAssembly.Proofs.Texts
import ScriptAssembly.Source.Basic
import ScriptAssembly.Source.WordTable
import ScriptAssembly.Text.Basic
import ScriptAssembly.Text.CodePoint
import ScriptAssembly.Proofs.Emission
import ScriptAssembly.Proofs.Interleaving
import ScriptAssembly.Proofs.Linked
import ScriptAssembly.Proofs.Registration
import ScriptAssembly.Proofs.Tables
import ScriptAssembly.Proofs.History
import ScriptAssembly.Proofs.Reordering
import ScriptAssembly.Proofs.Sections
import ScriptAssembly.Proofs.Calls
import ScriptAssembly.Proofs.BuilderInPlace
import ScriptAssembly.Proofs.Faults
import ScriptAssembly.Proofs.DebugInfo
import ScriptAssembly.Proofs.ExportNames
import ScriptAssembly.Proofs.MainRecord
import ScriptAssembly.Proofs.Acceptance
import ScriptAssembly.Proofs.Listing
import ScriptAssembly.Proofs.ListingLines
import ScriptAssembly.Proofs.Positions
import ScriptAssembly.Proofs.Placement
import ScriptAssembly.Proofs.Translation
import ScriptAssembly.Proofs.Branches
import ScriptAssembly.Proofs.Release
import ScriptAssembly.Proofs.InPlace
import ScriptAssembly.Proofs.Indexes
import ScriptAssembly.Proofs.Requests
import ScriptAssembly.Proofs.RequestOrder
import ScriptAssembly.Proofs.References
import ScriptAssembly.Proofs.Variables
import ScriptAssembly.Proofs.Emitter
import ScriptAssembly.Proofs.Strings
import ScriptAssembly.Proofs.Relabeling
import ScriptAssembly.Proofs.BufferIds
import ScriptAssembly.Proofs.WordTable
import ScriptAssembly.Proofs.OffsetOrder
import ScriptAssembly.Proofs.InstructionText
