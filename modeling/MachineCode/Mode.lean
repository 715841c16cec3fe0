import MachineCode.Text.FlagSet

/-!
# Architectures and modes

A mode is a set of flags in a 32-bit word, of which unknown bits are kept. An
architecture supports some modes: x86 exactly one width and nothing else, MIPS
exactly one of its two widths and neither of the compressed forms.
-/

namespace MachineCode

/-- Register and address widths of a processor. -/
inductive Width where
  | w16 | w32 | w64
deriving DecidableEq

namespace Width

/-- Width in bits. -/
def bits : Width → UInt16
  | w16 => 16
  | w32 => 32
  | w64 => 64

/-- Width in bytes. -/
def bytes : Width → Nat
  | w16 => 2
  | w32 => 4
  | w64 => 8

/-- Whether this is the 64-bit width. -/
def isLong (w : Width) : Bool :=
  decide (w = w64)

end Width

/-- Mode flags. -/
structure Mode where
  bits : BitVec 32
deriving DecidableEq

namespace Mode

def width16 : BitVec 32 := 0x2
def width32 : BitVec 32 := 0x4
def width64 : BitVec 32 := 0x8
def micro : BitVec 32 := 0x10
def mips3 : BitVec 32 := 0x20
def release6 : BitVec 32 := 0x40
def bigEndianOrder : BitVec 32 := 0x80000000

/-- Flag names. Little-endian order is the absence of a flag, and the MIPS widths are second
names, so none of the three is ever written. -/
def flagNames : Text.FlagNames 32 := [
  ("LITTLE_ENDIAN", 0), ("MODE_16", width16), ("MODE_32", width32), ("MODE_64", width64),
  ("MICRO", micro), ("MIPS3", mips3), ("MIPS32R6", release6), ("BIG_ENDIAN", bigEndianOrder),
  ("MIPS32", width32), ("MIPS64", width64)]

/-- Whether all bits of a flag are set. -/
def has (m : Mode) (flag : BitVec 32) : Bool :=
  m.bits &&& flag == flag

/-- The flag text. -/
def text (m : Mode) : String :=
  flagNames.print m.bits

/-- Reads a flag text. -/
def ofText? (s : String) : Option Mode :=
  (flagNames.parse? s).map Mode.mk

/-- The width that the flags select; 32 bits when none is given. -/
def width (m : Mode) : Width :=
  if m.has width64 then .w64 else if m.has width16 then .w16 else .w32

/-- Whether words are stored most significant byte first. -/
def isBigEndian (m : Mode) : Bool :=
  m.has bigEndianOrder

end Mode

/-- Instruction-set families. -/
inductive Architecture where
  | x86
  | mips
deriving DecidableEq

namespace Architecture

/-- Display name. -/
def name : Architecture → String
  | x86 => "x86"
  | mips => "mips"

/-- Reads an architecture name; the case of ASCII letters does not matter. -/
def ofText? (s : String) : Option Architecture :=
  let s := String.ofList (s.toList.map Char.toLower)
  if s ∈ ["x86", "x86_64", "x64", "amd64", "i386"] then some x86
  else if s ∈ ["mips", "mips32", "mips64", "mipsel"] then some mips
  else none

/-- Whether a mode is meaningful for this architecture. -/
def supports (a : Architecture) (m : Mode) : Bool :=
  match a with
  | x86 => m.bits == Mode.width16 || m.bits == Mode.width32 || m.bits == Mode.width64
  | mips =>
    !m.has Mode.micro && !m.has Mode.width16 && (m.has Mode.width32 != m.has Mode.width64)

/-- Length of the shortest instruction in bytes. -/
def minLength : Architecture → Nat
  | x86 => 1
  | mips => 4

/-- Length of the longest instruction in bytes. -/
def maxLength : Architecture → Nat
  | x86 => 15
  | mips => 4

end Architecture

/-- Why a decoder cannot be set up. -/
inductive SetupError where
  | unsupportedArchitecture (text : String)
  | unsupportedMode (architecture : Architecture) (mode : Mode)
  | blankDataMnemonic
deriving DecidableEq

namespace SetupError

/-- The message shown to a user. An empty mode is shown as zero. -/
def message : SetupError → String
  | unsupportedArchitecture text => "Unsupported architecture: " ++ text
  | unsupportedMode architecture mode =>
    let flags := if mode.bits = 0 then "0x0" else mode.text
    "Unsupported mode for " ++ architecture.name ++ ": Mode(" ++ flags ++ ")"
  | blankDataMnemonic => "Invalid input: skip_data_mnemonic must not be empty"

/-- The error without its particulars. -/
def kind : SetupError → String
  | unsupportedArchitecture _ => "UnsupportedArchitecture"
  | unsupportedMode .. => "UnsupportedMode"
  | blankDataMnemonic => "InvalidInput"

end SetupError

end MachineCode
