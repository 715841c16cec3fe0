import MachineCode.Proofs.Sequential
import MachineCode.X86.Decode

/-!
# Reading the body settles

Behind the ModRM byte nothing is looked at before it is taken, so the address
and the operand slots are sequential part by part. Whatever is missing here is
missing inside an operand, and an instruction that came out too long is refused
as a whole.
-/

namespace MachineCode.X86

open Bytes Read

theorem readDisp_sequential (size : Nat) : (Address.readDisp size).Sequential := by
  rw [Address.readDisp]
  split
  · exact .pure 0
  · exact .signed size

theorem read16_sequential (segment : MachineCode.Register) (mod rm : UInt8) :
    (Address.read16 segment mod rm).Sequential := by
  refine Sequential.bind ?_ fun disp => .pure _
  exact readDisp_sequential _

theorem readSib_sequential (f : Frame) (segment : MachineCode.Register) (mod : UInt8) :
    (Address.readSib f segment mod).Sequential := by
  refine Sequential.byte.bind fun sib => ?_
  exact (readDisp_sequential _).bind fun disp => .pure _

theorem readPlain_sequential (f : Frame) (segment : MachineCode.Register) (mod rm : UInt8) :
    (Address.readPlain f segment mod rm).Sequential := by
  refine Sequential.bind ?_ fun disp => .pure _
  exact readDisp_sequential _

theorem readAddress_sequential (f : Frame) : (readAddress f).Sequential := by
  rw [readAddress]
  split
  · exact .pure none
  · rw [Address.read?.eq_def]
    split
    · exact .pure none
    · simp only []
      split
      · exact .pure none
      · split
        · exact (read16_sequential _ _ _).map
        · split
          · exact (readSib_sequential f _ _).map
          · exact (readPlain_sequential f _ _ _).map

theorem liftExcept_sequential (e : Except Fault SlotValue) :
    (readSlot.liftExcept e).Sequential := by
  cases e with
  | ok value => exact .pure value
  | error fault => exact .fail fault

theorem readSlot_sequential (f : Frame) (a : Option Address) (address : UInt64) (slot : Slot) :
    (readSlot f a address slot).Sequential := by
  cases hsource : slot.source <;> simp only [readSlot, hsource]
  case rm | rmReg | vecRm | vecRmReg | mmxRm | mmxRmReg | maskRm =>
    exact liftExcept_sequential _
  case mem =>
    split
    · exact liftExcept_sequential _
    · exact .fail _
  case segmentReg =>
    split
    · exact .fail _
    · exact .pure _
  case vecImm => exact Sequential.byte.bind fun imm => .pure _
  case imm | offset => exact (Sequential.unsigned _).bind fun value => .pure _
  case signedImm => exact (Sequential.signed _).bind fun value => .pure _
  case rel =>
    refine (Sequential.signed _).bind fun disp => ?_
    exact Sequential.used.bind fun length => .pure _
  case farPointer =>
    refine (Sequential.unsigned _).bind fun offset => ?_
    exact (Sequential.unsigned _).bind fun selector => .pure _
  all_goals exact .pure _

theorem readSlots_sequential (f : Frame) (a : Option Address) (address : UInt64)
    (slots : List Slot) (body : Body) : (readSlots f a address slots body).Sequential := by
  induction slots generalizing body with
  | nil => exact .pure body
  | cons slot slots ih =>
      exact (readSlot_sequential f a address slot).bind fun value => ih _

theorem readOperands_sequential (f : Frame) (address : UInt64) :
    (readOperands f address).Sequential :=
  (readAddress_sequential f).bind fun a => readSlots_sequential f a address _ _

theorem readBody_sequential (f : Frame) (address : UInt64) :
    (readBody f address).Sequential := by
  refine (readOperands_sequential f address).inOperand.bind fun body => ?_
  refine Sequential.used.bind fun length => ?_
  split
  · exact .fail _
  · exact .pure _

theorem readBody_faults (f : Frame) (address : UInt64) :
    (readBody f address).Faults (·.isUnderrun = false) := by
  refine (Faults.inOperand _).bind fun body => ?_
  refine Faults.bind (fun _ _ _ hrun => by cases hrun) fun length => ?_
  split
  · exact .fail rfl
  · exact .pure _

/-- A body that was read ends within the longest instruction. -/
theorem readBody_used_le {f : Frame} {address : UInt64} {body : Body} {t t' : Tape}
    (hrun : readBody f address t = .ok body t') : t'.used ≤ maxLength := by
  obtain ⟨operands, t₁, -, hrest⟩ := of_bind_ok hrun
  obtain ⟨length, t₂, hused, hcheck⟩ := of_bind_ok hrest
  cases hused
  split at hcheck
  · cases hcheck
  · next hle =>
      cases hcheck
      exact Nat.le_of_not_gt hle

end MachineCode.X86
