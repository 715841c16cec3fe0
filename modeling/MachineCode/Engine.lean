import MachineCode.Bytes.Reader
import MachineCode.Mips.Decode
import MachineCode.Options
import MachineCode.X86.Decode

/-!
# Decoding engines

An engine is an architecture, a mode that it supports, and options. It decodes
the instruction at the position of a reader in stages that move along the bytes.
A stage that fails stops somewhere inside the instruction; the engine then takes
the reader back and moves the report to the start of the instruction.
-/

namespace MachineCode

open Bytes (Reader Read)

/-- A decoder for one architecture and mode. -/
structure Engine where
  architecture : Architecture
  mode : Mode
  supported : architecture.supports mode = true
  options : Options := {}
deriving DecidableEq

namespace Engine

/-- The engine for an architecture and a mode, with default options. -/
def new (architecture : Architecture) (mode : Mode) : Except SetupError Engine :=
  if h : architecture.supports mode = true then .ok { architecture, mode, supported := h }
  else .error (.unsupportedMode architecture mode)

/-- The engine of a configuration. Bytes that are stepped over need a visible mnemonic. -/
def ofConfig (c : Config) : Except SetupError Engine := do
  let e ← new c.architecture c.mode
  if Text.blankText c.options.dataMnemonic then .error .blankDataMnemonic
  else .ok { e with options := c.options }

/-- The engine with other options. -/
def withOptions (e : Engine) (options : Options) : Engine :=
  { e with options }

/-- The stages of a decode, one after the other. Too few bytes for even the shortest instruction
are noticed at once. -/
def stages (e : Engine) (address : UInt64) : Read Instruction := do
  Read.atLeast e.architecture.minLength
  match e.architecture with
  | .x86 => X86.decode e.mode.width e.options.detail address
  | .mips => Mips.decode (.ofMode e.mode) e.options.detail address

/-- Decodes the instruction at the beginning of some bytes, wherever these lie. -/
def decode (e : Engine) (address : UInt64) (bytes : List UInt8) : Except Fault Instruction :=
  match e.stages address { rest := bytes } with
  | .ok i _ => .ok i
  | .error err _ => .error err.fault

/-- Runs the stages from the position of a reader. A stage that fails leaves the reader where it
stopped, and reports the offset that it knows of. -/
def runStages (e : Engine) (address : UInt64) : EStateM DecodeError Reader Instruction := fun r =>
  match e.stages address { start := r.position, rest := r.rest } with
  | .ok i t => .ok i (Reader.ofPosition r.data t.position)
  | .error err t => .error err (Reader.ofPosition r.data t.position)

/-- Decodes at the position of a reader. The reader ends behind the instruction; after a failure
it is back at the start of the instruction, and so is the report. -/
def decodeAt (e : Engine) (r : Reader) (address : UInt64) :
    EStateM.Result DecodeError Reader Instruction :=
  match e.runStages address r with
  | .ok i r' => .ok i r'
  | .error err r' => .error (err.moveTo r.position) (r'.restore r.position)

/-- Decodes at an offset of a buffer, and gives the offset behind the instruction. Beyond the end
of the buffer even the shortest instruction is missing. -/
def decodeOne (e : Engine) (bytes : List UInt8) (offset : Nat) (address : UInt64) :
    Except DecodeError (Instruction × Nat) :=
  if bytes.length < offset then
    .error { offset, fault := .underrun e.architecture.minLength 0 }
  else
    match e.decodeAt (Reader.ofPosition bytes offset) address with
    | .ok i r => .ok (i, r.position)
    | .error err _ => .error err

end Engine

end MachineCode
