import MachineCode.Proofs.Document.Instruction
import MachineCode.Proofs.Mips.Assembly
import MachineCode.Proofs.X86.Slots

/-!
# Decoded operands are exact

No encoding holds a floating-point number, so a decoded operand is a register,
an integer or a memory reference. This is read off what a slot can make.
-/

namespace MachineCode

theorem Operand.isExact_ofRegister (r : Register) (size : UInt16) (access : Access) :
    (Operand.ofRegister r size access).IsExact :=
  fun _ => OperandKind.noConfusion

theorem Operand.isExact_ofImmediate (value : Int64) (size : UInt16) :
    (Operand.ofImmediate value size).IsExact :=
  fun _ => OperandKind.noConfusion

theorem Operand.isExact_ofMemory (m : MemoryRef) (size : UInt16) (access : Access) :
    (Operand.ofMemory m size access).IsExact :=
  fun _ => OperandKind.noConfusion

theorem X86.Slot.Makes.isExact {f : X86.Frame} {a : Option X86.Address} {slot : X86.Slot}
    {o : Operand} (h : slot.Makes f a o.kind o.size) : o.IsExact := by
  intro x hx
  rw [hx] at h
  cases h

namespace Mips

variable {v : Variant} {address : UInt64} {w : Word}

theorem operand?_isExact {slot : Slot} {o : Operand} (h : v.operand? address w slot = some o) :
    o.IsExact := by
  cases hsource : slot.source <;> simp only [Variant.operand?, hsource] at h
  case insertSize =>
    split at h
    · cases h
    · cases h
      exact Operand.isExact_ofImmediate _ _
  case mem | mem9 =>
    cases h
    exact Operand.isExact_ofMemory _ _ _
  case rs | rt | rd | fs | ft | fd | branchCondition | compareCondition =>
    cases h
    exact Operand.isExact_ofRegister _ _ _
  all_goals
    cases h
    exact Operand.isExact_ofImmediate _ _

end Mips

theorem Engine.operands_isExact {e : Engine} {bytes : List UInt8} {offset next : Nat}
    {address : UInt64} {i : Instruction}
    (h : e.decodeOne bytes offset address = .ok (i, next)) : ∀ o ∈ i.operands, o.IsExact := by
  cases he : e.architecture with
  | x86 =>
      obtain ⟨f, a, -, -, -, hmade⟩ := X86.made_of_decodeOne he h
      intro o ho
      obtain ⟨slot, -, hslot⟩ := hmade o ho
      exact hslot.isExact
  | mips =>
      obtain ⟨w, row, operands, t, -, hrun, rfl, -⟩ := Mips.parts_of_decodeOne he h
      intro o ho
      obtain ⟨slot, -, hslot⟩ := Mips.exists_of_mem_mapM (Mips.of_readParts hrun).2.2 ho
      exact Mips.operand?_isExact hslot

end MachineCode
