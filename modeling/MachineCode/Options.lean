import MachineCode.Mode
import MachineCode.Text.Blank

/-!
# Options and configurations

What a caller may choose: how much detail a decode gives, what a walk over a
buffer does with bytes that do not decode, and how far it goes. A configuration
adds the architecture and the mode.
-/

namespace MachineCode

/-- What a walk does where no instruction decodes. -/
inductive ErrorPolicy where
  /-- It ends, with the failure. -/
  | stop
  /-- It steps over one byte. -/
  | skipByte
deriving DecidableEq

namespace ErrorPolicy

/-- The word for a policy in documents. -/
def name : ErrorPolicy → String
  | stop => "stop"
  | skipByte => "skip_byte"

end ErrorPolicy

/-- Choices of a caller. -/
structure Options where
  /-- Whether to give groups, implicit registers and encoding detail. -/
  detail : Bool := true
  onError : ErrorPolicy := .stop
  /-- The most items of a walk; zero for no bound. -/
  maxInstructions : UInt64 := 0
  /-- How a byte that was stepped over is shown. -/
  dataMnemonic : String := ".byte"
deriving DecidableEq

namespace Options

/-- The most items of a walk, if there is a bound. -/
def limit? (o : Options) : Option Nat :=
  if o.maxInstructions = 0 then none else some o.maxInstructions.toNat

/-- The most items of a walk, with the greatest 64-bit number for no bound. -/
def limit (o : Options) : Nat :=
  o.limit?.getD (UInt64.size - 1)

end Options

/-- An architecture, a mode and options. -/
structure Config where
  architecture : Architecture
  mode : Mode
  options : Options := {}
deriving DecidableEq

end MachineCode
