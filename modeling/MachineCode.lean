import MachineCode.Bytes.Endian
import MachineCode.Bytes.Hex
import MachineCode.Bytes.Reader
import MachineCode.Bytes.Tape
import MachineCode.Decimal.Binary64
import MachineCode.Decimal.Shortest
import MachineCode.Distinct
import MachineCode.Document.Config
import MachineCode.Document.Instruction
import MachineCode.Document.Listing
import MachineCode.Engine
import MachineCode.Fault
import MachineCode.Group
import MachineCode.Instruction
import MachineCode.Json.Basic
import MachineCode.Json.Form
import MachineCode.Json.Token
import MachineCode.Json.Tree
import MachineCode.Listing
import MachineCode.Mips.Decode
import MachineCode.Mips.Mnemonic
import MachineCode.Mips.Operand
import MachineCode.Mips.Register
import MachineCode.Mips.Row
import MachineCode.Mips.Table
import MachineCode.Mips.Table.Control
import MachineCode.Mips.Table.Float
import MachineCode.Mips.Table.Integer
import MachineCode.Mips.Table.Memory
import MachineCode.Mips.Table.Shape
import MachineCode.Mips.Table.System
import MachineCode.Mips.Text
import MachineCode.Mips.Variant
import MachineCode.Mode
import MachineCode.Operand
import MachineCode.Options
import MachineCode.Register
import MachineCode.Specificity
import MachineCode.Stream
import MachineCode.Text.Blank
import MachineCode.Text.FlagSet
import MachineCode.Text.Number
import MachineCode.Vocabulary
import MachineCode.X86.Address
import MachineCode.X86.Body
import MachineCode.X86.Decode
import MachineCode.X86.Detail
import MachineCode.X86.FlagEffects
import MachineCode.X86.Frame
import MachineCode.X86.Head
import MachineCode.X86.Mnemonic
import MachineCode.X86.Predicate
import MachineCode.X86.Prefixes
import MachineCode.X86.Register
import MachineCode.X86.Row
import MachineCode.X86.Table
import MachineCode.X86.Table.Arithmetic
import MachineCode.X86.Table.Avx
import MachineCode.X86.Table.Avx512
import MachineCode.X86.Table.Bits
import MachineCode.X86.Table.Control
import MachineCode.X86.Table.Fma
import MachineCode.X86.Table.Mmx
import MachineCode.X86.Table.Opmask
import MachineCode.X86.Table.Shape
import MachineCode.X86.Table.Sse
import MachineCode.X86.Table.Strings
import MachineCode.X86.Table.System
import MachineCode.X86.Table.Transfer
import MachineCode.X86.Table.X87
import MachineCode.X86.Table.Xop
import MachineCode.X86.Text
import MachineCode.Proofs.Sequential
import MachineCode.Proofs.X86.Candidates
import MachineCode.Proofs.X86.Selection
import MachineCode.Proofs.X86.Frame
import MachineCode.Proofs.X86.Body
import MachineCode.Proofs.Stages
import MachineCode.Proofs.SingleDecode
import MachineCode.Proofs.Truncation
import MachineCode.Proofs.Walk
import MachineCode.Proofs.Specificity
import MachineCode.Proofs.X86.RowChoice
import MachineCode.Proofs.Mips.RowChoice
import MachineCode.Proofs.Taken
import MachineCode.Proofs.X86.FrameBytes
import MachineCode.Proofs.X86.BodyBytes
import MachineCode.Proofs.X86.Layout
import MachineCode.Proofs.Concatenation
import MachineCode.Proofs.Options
import MachineCode.Proofs.Stream
import MachineCode.Proofs.Mips.Assembly
import MachineCode.Proofs.Runs
import MachineCode.Proofs.Bearing
import MachineCode.Proofs.X86.Relocation
import MachineCode.Proofs.Mips.Relocation
import MachineCode.Proofs.Relocation
import MachineCode.Proofs.Lockstep
import MachineCode.Proofs.X86.Alike
import MachineCode.Proofs.X86.Prefixes
import MachineCode.Proofs.X86.VexForms
import MachineCode.Proofs.X86.SizePrefixes
import MachineCode.Proofs.Mips.Words
import MachineCode.Proofs.Mips.ByteOrder
import MachineCode.Proofs.Mips.Widths
import MachineCode.Proofs.Text.Number
import MachineCode.Proofs.Text.FlagSet
import MachineCode.Proofs.Json.Token
import MachineCode.Proofs.Json.Tree
import MachineCode.Proofs.Json.Form
import MachineCode.Proofs.Document.Config
import MachineCode.Proofs.Vocabulary
import MachineCode.Proofs.Document.Instruction
import MachineCode.Proofs.X86.PrefixSummary
import MachineCode.Proofs.Faults
import MachineCode.Proofs.Document.Operands
import MachineCode.Proofs.Document.Listing
import MachineCode.Proofs.X86.MemoryRefs
import MachineCode.Proofs.RegisterOperands
import MachineCode.Proofs.X86.AddressForms
import MachineCode.Proofs.X86.RegisterNumbers
import MachineCode.Proofs.Distinct
import MachineCode.Proofs.X86.ImplicitRegisters
import MachineCode.Proofs.X86.QuadRegisters
import MachineCode.Proofs.X86.BranchTargets
import MachineCode.Proofs.TargetText
import MachineCode.Proofs.Columns
import MachineCode.Proofs.X86.AddressOperand
import MachineCode.Proofs.X86.Broadcast
import MachineCode.Proofs.X86.Decorations
import MachineCode.Proofs.X86.LengthLimit
import MachineCode.Proofs.RegisterAccounts
import MachineCode.Proofs.Detail
import MachineCode.Proofs.Mips.CompactBranches
import MachineCode.Proofs.ImplicitRegisters
import MachineCode.Proofs.Bytes.LookAhead
import MachineCode.Proofs.Bytes.Endian
import MachineCode.Proofs.Bytes.BitSlice
import MachineCode.Proofs.Session
import MachineCode.Proofs.Text.FlagItems
import MachineCode.Proofs.Text.Compact
import MachineCode.Proofs.X86.Payloads
