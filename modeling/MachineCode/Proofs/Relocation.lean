import MachineCode.Proofs.Mips.Relocation
import MachineCode.Proofs.X86.Relocation

/-!
# Moving an instruction to another address

The address that a decode is given takes no part in it. It is kept in the record,
and it is what branch targets are relative to; nothing else reads it. So the
record at one address determines the record at any other: every operand has a
bearing on the address, which follows from its slot, and moving the instruction
moves the values of the operands that are not fixed. What fails at one address
fails at every other in the same way.
-/

namespace MachineCode

open Bytes Read

/-- The bearings of the operands of an instruction with these bytes. -/
def Engine.bearings? (e : Engine) (bytes : List UInt8) : Option (List Bearing) :=
  match e.architecture with
  | .x86 =>
    match X86.readFrame e.mode.width { rest := bytes } with
    | .ok f _ => some f.bearings
    | .error _ _ => none
  | .mips =>
    match Mips.readWord (.ofMode e.mode) { rest := bytes } with
    | .ok w _ => (Mips.Variant.row? (.ofMode e.mode) w).map (Mips.Row.bearings (.ofMode e.mode))
    | .error _ _ => none

namespace Engine

/-- Decodes of the same bytes at two addresses give the same instruction, or the same error. -/
def DecodesAlike (e : Engine) (bytes : List UInt8) (offset : Nat) (start dest : UInt64) : Prop :=
  (∃ i i' next bearings, e.decodeOne bytes offset start = .ok (i, next) ∧
    e.decodeOne bytes offset dest = .ok (i', next) ∧ e.bearings? i.bytes = some bearings ∧
    i.Relocates i' bearings start dest) ∨
  ∃ err, e.decodeOne bytes offset start = .error err ∧
    e.decodeOne bytes offset dest = .error err

variable {e : Engine} {bytes : List UInt8} {offset : Nat}

theorem decodesAlike_x86 (he : e.architecture = .x86) (hoffset : offset ≤ bytes.length)
    (start dest : UInt64) :
    e.DecodesAlike bytes offset start dest := by
  have hdest := X86.readParts_relocate e.mode.width start dest (Tape.ofOffset bytes offset)
  cases hrun : X86.readParts e.mode.width start (Tape.ofOffset bytes offset) with
  | error err t =>
      have hrun' : X86.readParts e.mode.width dest (Tape.ofOffset bytes offset) = .error err t :=
        hdest.trans (map_error hrun)
      exact .inr ⟨_, X86.decodeOne_of_parts_error he hoffset hrun,
        X86.decodeOne_of_parts_error he hoffset hrun'⟩
  | ok parts t =>
      obtain ⟨f, body⟩ := parts
      have hrun' := hdest.trans (map_ok hrun)
      have hfound := X86.decodeOne_of_parts he hoffset hrun
      have hfound' := X86.decodeOne_of_parts he hoffset hrun'
      refine .inl ⟨_, _, _, f.bearings, hfound, hfound', ?_, ?_⟩
      · obtain ⟨t', hbytes⟩ := (X86.readParts_sequential _ start).run_taken hrun
        obtain ⟨t₁, hframe, -⟩ := X86.of_readParts hbytes
        simp only [bearings?, he]
        show (match X86.readFrame e.mode.width { rest := (bytes.drop offset).take t.used } with
          | .ok f _ => some f.bearings
          | .error _ _ => none) = _
        rw [hframe]
      · obtain ⟨t₁, hframe, hbody⟩ := X86.of_readParts hrun
        obtain ⟨-, hchosen⟩ := X86.readFrame_chosen hframe
        exact X86.instructionOf_relocates hchosen hbody dest _ _

theorem decodesAlike_mips (he : e.architecture = .mips) (hoffset : offset ≤ bytes.length)
    (start dest : UInt64) :
    e.DecodesAlike bytes offset start dest := by
  have hdest := Mips.readParts_relocate (.ofMode e.mode) start dest (Tape.ofOffset bytes offset)
  cases hrun : Mips.readParts (.ofMode e.mode) start (Tape.ofOffset bytes offset) with
  | error err t =>
      have hrun' := hdest.trans (map_error hrun)
      exact .inr ⟨_, Mips.decodeOne_of_parts_error he hoffset hrun,
        Mips.decodeOne_of_parts_error he hoffset hrun'⟩
  | ok parts t =>
      obtain ⟨w, row, ops⟩ := parts
      have hrun' := hdest.trans (map_ok hrun)
      have hfound := Mips.decodeOne_of_parts he hoffset hrun
      have hfound' := Mips.decodeOne_of_parts he hoffset hrun'
      obtain ⟨-, hrow, hops⟩ := Mips.of_readParts hrun
      refine .inl ⟨_, _, _, row.bearings _, hfound, hfound', ?_,
        Mips.instructionOf_relocates hops dest _ _⟩
      obtain ⟨t', hbytes⟩ := (Mips.readParts_sequential _ start).run_taken hrun
      have hword := (Mips.of_readParts hbytes).1
      simp only [bearings?, he]
      show (match Mips.readWord (.ofMode e.mode)
          { rest := (bytes.drop offset).take t.used } with
        | .ok w _ => (Mips.Variant.row? _ w).map _
        | .error _ _ => none) = _
      rw [hword]
      exact congrArg (Option.map _) hrow

theorem decodesAlike (e : Engine) (bytes : List UInt8) (offset : Nat) (start dest : UInt64) :
    e.DecodesAlike bytes offset start dest := by
  by_cases hoffset : bytes.length < offset
  · exact .inr ⟨_, decodeOne_beyond e start hoffset, decodeOne_beyond e dest hoffset⟩
  · have hle := Nat.le_of_not_lt hoffset
    cases he : e.architecture with
    | x86 => exact decodesAlike_x86 he hle start dest
    | mips => exact decodesAlike_mips he hle start dest

/-- The address does not decide about a decode. At any two addresses the same bytes fail with the
same error, or give the same instruction, moved: the records agree but for the address, the values
of the operands that are not fixed, and the text if there are such operands. The values of a
relative operand differ as the addresses do, up to the width of the program counter. -/
theorem decodeOne_relocates (e : Engine) (bytes : List UInt8) (offset : Nat)
    (start dest : UInt64) :
    (∃ i i' next bearings, e.decodeOne bytes offset start = .ok (i, next) ∧
      e.decodeOne bytes offset dest = .ok (i', next) ∧ e.bearings? i.bytes = some bearings ∧
      i.Relocates i' bearings start dest ∧
      ∀ (k bits : Nat) (value value' : Int64), bearings[k]? = some (.relative bits) →
        i.operands[k]?.bind Operand.immediate? = some value →
        i'.operands[k]?.bind Operand.immediate? = some value' →
        (value.toUInt64 - value'.toUInt64).toNat % 2 ^ bits =
          (start - dest).toNat % 2 ^ bits) ∨
    ∃ err, e.decodeOne bytes offset start = .error err ∧
      e.decodeOne bytes offset dest = .error err := by
  rcases e.decodesAlike bytes offset start dest with
    ⟨i, i', next, bearings, hstart, hdest, hbearings, hmoved⟩ | herror
  · refine .inl ⟨i, i', next, bearings, hstart, hdest, hbearings, hmoved, ?_⟩
    intro k bits value value' hk hvalue hvalue'
    obtain rfl := hmoved.move_eq hk hvalue hvalue'
    exact Bearing.move_relative_sub bits value
  · exact .inr herror

-- the target of `b` wraps around the end of the address space
example :
    [0x1000, 0xfffffff8].map (fun address =>
      (mipsOf32.decodeOne [0x01, 0x00, 0x00, 0x10] 0 address).map
        fun r => r.1.operands.map Operand.immediate?) =
      [.ok [some 0x1008], .ok [some 0]] := by
  decide +kernel

end Engine

end MachineCode
