import MachineCode.X86.Frame

/-!
# Memory addresses

The r/m field of the ModRM byte names a register or an address. An address
combines a base register, a scaled index register and a displacement of 0, 1, 2
or 4 bytes; 16-bit addresses have their own eight combinations, the others may
take a SIB byte.
-/

namespace MachineCode.X86

open Bytes (Read)

/-- An address as encoded. -/
structure Address where
  memory : MemoryRef
  /-- Whether the displacement takes one byte, which EVEX scales. -/
  shortDisp : Bool
  sib : Option UInt8 := none
deriving DecidableEq

namespace Address

/-- Base and index registers of the eight 16-bit combinations. -/
def pair16 (rm : UInt8) : Register × Register :=
  #[(.word 3, .word 6), (.word 3, .word 7), (.word 5, .word 6), (.word 5, .word 7),
    (.word 6, .absent), (.word 7, .absent), (.word 5, .absent), (.word 3, .absent)].getD
    rm.toNat (.absent, .absent)

/-- Reads a displacement of 0, 1, 2 or 4 bytes. -/
def readDisp (size : Nat) : Read Int64 :=
  if size = 0 then pure 0 else Read.signed size

/-- Reads a 16-bit address. -/
def read16 (segment : MachineCode.Register) (mod rm : UInt8) : Read Address := do
  let direct := mod = 0 ∧ rm = 6
  let size := if direct then 2 else if mod = 0 then 0 else if mod = 1 then 1 else 2
  let (base, index) := if direct then (.absent, .absent) else pair16 rm
  let disp ← readDisp size
  return {
    memory := { segment, base := .ofX86 base, index := .ofX86 index, disp }
    shortDisp := size = 1 }

/-- The number of displacement bytes that the top bits of the ModRM byte ask for. -/
def dispSize (mod : UInt8) : Nat :=
  if mod = 1 then 1 else if mod = 2 then 4 else 0

/-- Reads an address with a SIB byte. -/
def readSib (f : Frame) (segment : MachineCode.Register) (mod : UInt8) : Read Address := do
  let sib ← Read.byte
  let bits := f.addressSize.bits
  let indexNumber := sib >>> 3 &&& 7 ||| f.head.xExt
  let baseNumber := sib &&& 7 ||| f.head.bExt
  let noBase := mod = 0 ∧ baseNumber &&& 7 = 5
  let size := if noBase then 4 else dispSize mod
  let disp ← readDisp size
  return {
    memory := {
      segment
      base := if noBase then .absent else .ofX86 (.general baseNumber bits true)
      index := if indexNumber = 4 then .absent else .ofX86 (.general indexNumber bits true)
      scale := if indexNumber = 4 then 1 else (1 : UInt8) <<< (sib >>> 6)
      disp }
    shortDisp := size = 1
    sib := some sib }

/-- Reads an address without a SIB byte. With no displacement asked for, r/m field 5 means a
displacement alone, which 64-bit mode takes relative to the instruction pointer. -/
def readPlain (f : Frame) (segment : MachineCode.Register) (mod rm : UInt8) : Read Address := do
  let bits := f.addressSize.bits
  let direct := mod = 0 ∧ rm = 5
  let size := if direct then 4 else dispSize mod
  let base : Register :=
    if direct then if f.head.mode.isLong then .instructionPointer bits else .absent
    else .general (rm ||| f.head.bExt) bits true
  let disp ← readDisp size
  return { memory := { segment, base := .ofX86 base, disp }, shortDisp := size = 1 }

/-- Reads the address that the ModRM byte asks for, if it has the memory form. -/
def read? (f : Frame) : Read (Option Address) :=
  match f.modrm with
  | none => pure none
  | some m =>
    let mod := m >>> 6
    let rm := m &&& 7
    let segment := MachineCode.Register.ofX86 f.head.prefixes.segment
    if mod = 3 then pure none
    else if f.addressSize = .w16 then some <$> read16 segment mod rm
    else if rm = 4 then some <$> readSib f segment mod
    else some <$> readPlain f segment mod rm

end Address

end MachineCode.X86
