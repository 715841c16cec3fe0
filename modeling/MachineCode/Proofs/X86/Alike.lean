import MachineCode.Proofs.Lockstep
import MachineCode.X86.Decode

/-!
# Frames that read alike

Reading the operands of an instruction looks at part of its frame only. Of the
mode it asks whether it is the 64-bit mode, and of the prefixes it asks for the
segment and the extension byte; what else they decide about is in the sizes
already. Frames that have these things in common are alike, and read the same
operands from the same bytes.

A branch target is relative to the end of the instruction. So if one instruction
began some bytes earlier than the other, it must also lie at an address that is
lower by as much, or have no such operand.
-/

namespace MachineCode.X86

open Bytes Read

/-- Two frames that agree in what the readers of the operands look at. -/
structure Frame.Alike (f f' : Frame) : Prop where
  opcode_eq : f'.opcode = f.opcode
  row_eq : f'.row = f.row
  modrm_eq : f'.modrm = f.modrm
  operandSize_eq : f'.operandSize = f.operandSize
  addressSize_eq : f'.addressSize = f.addressSize
  vectorLength_eq : f'.vectorLength = f.vectorLength
  control_eq : f'.control = f.control
  isLong_eq : f'.head.mode.isLong = f.head.mode.isLong
  encoding_eq : f'.head.encoding = f.head.encoding
  fields_eq : f'.head.fields = f.head.fields
  rex_eq : f'.head.prefixes.rex = f.head.prefixes.rex
  segment_eq : f'.head.prefixes.segment = f.head.prefixes.segment

theorem Frame.Alike.refl (f : Frame) : f.Alike f :=
  ⟨rfl, rfl, rfl, rfl, rfl, rfl, rfl, rfl, rfl, rfl, rfl, rfl⟩

namespace Frame.Alike

variable {f f' : Frame} {d : Nat}

theorem bits (hf : f.Alike f') (size : Size) : size.bits f' = size.bits f := by
  cases size <;>
    simp only [Size.bits, hf.operandSize_eq, hf.isLong_eq, hf.vectorLength_eq]

theorem extensionBit (hf : f.Alike f') (rexBit : UInt8) (payload : Bool) :
    f'.head.extensionBit rexBit payload = f.head.extensionBit rexBit payload := by
  rw [Head.extensionBit, Head.extensionBit, hf.encoding_eq, hf.rex_eq]

theorem rExt (hf : f.Alike f') : f'.head.rExt = f.head.rExt := by
  rw [Head.rExt, Head.rExt, hf.extensionBit, hf.fields_eq]

theorem xExt (hf : f.Alike f') : f'.head.xExt = f.head.xExt := by
  rw [Head.xExt, Head.xExt, hf.extensionBit, hf.fields_eq]

theorem bExt (hf : f.Alike f') : f'.head.bExt = f.head.bExt := by
  rw [Head.bExt, Head.bExt, hf.extensionBit, hf.fields_eq]

theorem hasRex (hf : f.Alike f') : f'.head.hasRex = f.head.hasRex := by
  rw [Head.hasRex, Head.hasRex, hf.rex_eq]

theorem vvvv (hf : f.Alike f') : f'.head.vvvv = f.head.vvvv := by
  rw [Head.vvvv, Head.vvvv, hf.fields_eq, hf.isLong_eq]

theorem regField (hf : f.Alike f') : f'.regField = f.regField := by
  rw [Frame.regField, Frame.regField, hf.modrm_eq]

theorem rmField (hf : f.Alike f') : f'.rmField = f.rmField := by
  rw [Frame.rmField, Frame.rmField, hf.modrm_eq]

theorem isEvex (hf : f.Alike f') : f'.isEvex = f.isEvex := by
  rw [Frame.isEvex, Frame.isEvex, hf.encoding_eq]

theorem opmask (hf : f.Alike f') : f'.opmask = f.opmask := by
  rw [Frame.opmask, Frame.opmask, hf.isEvex, hf.fields_eq]

theorem mnemonic (hf : f.Alike f') : f'.mnemonic = f.mnemonic := by
  rw [Frame.mnemonic, Frame.mnemonic, hf.row_eq, hf.operandSize_eq, hf.addressSize_eq]

theorem highBank (hf : f.Alike f') (bit : Bool) : X86.highBank f' bit = X86.highBank f bit := by
  rw [X86.highBank, X86.highBank, hf.isEvex]

theorem memoryOperand (hf : f.Alike f') : memoryOperand f' = memoryOperand f := by
  funext a size access
  simp only [X86.memoryOperand, hf.isEvex, hf.fields_eq, hf.row_eq]

theorem rmValue (hf : f.Alike f') : rmValue f' = rmValue f := by
  funext a size access register
  simp only [X86.rmValue, hf.memoryOperand]

theorem stringOperand (hf : f.Alike f') : stringOperand f' = stringOperand f := by
  funext segment number size access
  rw [X86.stringOperand, X86.stringOperand, hf.addressSize_eq]

theorem branchTarget (hf : f.Alike f') : branchTarget f' = branchTarget f := by
  funext address length disp
  simp only [X86.branchTarget, hf.operandSize_eq, hf.isLong_eq]

theorem decorate (hf : f.Alike f') : decorate f' = decorate f := by
  funext operands
  rw [X86.decorate.eq_def, X86.decorate.eq_def, hf.isEvex, hf.opmask, hf.fields_eq]

theorem operandsText (hf : f.Alike f') : operandsText f' = operandsText f := by
  funext operands
  rw [X86.operandsText.eq_def, X86.operandsText.eq_def, hf.row_eq, hf.addressSize_eq,
    hf.control_eq]

theorem readSib (hf : f.Alike f') : Address.readSib f' = Address.readSib f := by
  funext segment mod
  rw [Address.readSib, Address.readSib, hf.addressSize_eq, hf.xExt, hf.bExt]

theorem readPlain (hf : f.Alike f') : Address.readPlain f' = Address.readPlain f := by
  funext segment mod rm
  rw [Address.readPlain, Address.readPlain, hf.addressSize_eq, hf.isLong_eq, hf.bExt]

theorem readAddress (hf : f.Alike f') : readAddress f' = readAddress f := by
  simp only [X86.readAddress, Address.read?, hf.row_eq, hf.modrm_eq, hf.segment_eq,
    hf.addressSize_eq, hf.readSib, hf.readPlain]

theorem readSlot (hf : f.Alike f') : readSlot f' = readSlot f := by
  funext a address slot
  simp only [X86.readSlot, hf.bits, hf.rExt, hf.bExt, hf.hasRex, hf.vvvv, hf.regField,
    hf.rmField, hf.highBank, hf.memoryOperand, hf.rmValue, hf.stringOperand, hf.branchTarget,
    hf.isLong_eq, hf.operandSize_eq, hf.addressSize_eq, hf.fields_eq, hf.segment_eq,
    hf.opcode_eq]

theorem readSlots (hf : f.Alike f') : readSlots f' = readSlots f := by
  funext a address slots body
  induction slots generalizing body with
  | nil => rfl
  | cons slot slots ih => simp only [X86.readSlots, hf.readSlot, ih]

theorem readOperands (hf : f.Alike f') : readOperands f' = readOperands f := by
  funext address
  simp only [X86.readOperands, hf.readAddress, hf.row_eq, hf.readSlots]

end Frame.Alike

variable {f : Frame} {d : Nat} {a : Option Address}

theorem readOpcode_lockstep (h : Head) : Lockstep d (readOpcode h) (readOpcode h) := by
  refine Lockstep.byte.bind fun b => ?_
  split
  · exact .pure _
  · split
    · exact .pure _
    · refine Lockstep.byte.bind fun c => ?_
      split
      · exact Lockstep.byte.bind fun e => .pure _
      · split
        · exact Lockstep.byte.bind fun e => .pure _
        · exact .pure _

theorem readModrm_lockstep (row : Row) : Lockstep d (readModrm row) (readModrm row) := by
  rw [readModrm]
  split
  · exact Lockstep.byte.inOperand.map some
  · exact .pure none

theorem readRow_lockstep (h : Head) (opcode : Opcode) (row : Row) :
    Lockstep d (readRow h opcode row) (readRow h opcode row) := by
  refine (readModrm_lockstep row).bind fun modrm => ?_
  split
  · exact .fail _
  · exact .pure _

theorem readSelector_lockstep (h : Head) : Lockstep d (readSelector h) (readSelector h) := by
  refine (readOpcode_lockstep h).bind fun opcode => Lockstep.peek?.bind fun next => ?_
  split
  · exact .fail _
  · exact readRow_lockstep h opcode _

theorem readDisp_lockstep (size : Nat) :
    Lockstep d (Address.readDisp size) (Address.readDisp size) := by
  rw [Address.readDisp]
  split
  · exact .pure 0
  · exact .signed size

theorem readAddress_lockstep (f : Frame) : Lockstep d (readAddress f) (readAddress f) := by
  rw [readAddress]
  split
  · exact .pure none
  · rw [Address.read?]
    split
    · exact .pure none
    · simp only []
      split
      · exact .pure none
      · split
        · exact ((readDisp_lockstep _).bind fun _ => .pure _).map _
        · split
          · exact (Lockstep.byte.bind fun _ =>
              (readDisp_lockstep _).bind fun _ => .pure _).map _
          · exact ((readDisp_lockstep _).bind fun _ => .pure _).map _

theorem liftExcept_lockstep (e : Except Fault SlotValue) :
    Lockstep d (readSlot.liftExcept e) (readSlot.liftExcept e) := by
  cases e with
  | ok value => exact .pure value
  | error fault => exact .fail fault

theorem branchTarget_later (f : Frame) {address address' : UInt64}
    (haddress : address' + UInt64.ofNat d = address) (length : Nat) (disp : Int64) :
    branchTarget f address' (length + d) disp = branchTarget f address length disp := by
  have hend : address' + UInt64.ofNat (length + d) = address + UInt64.ofNat length := by
    rw [← haddress, UInt64.ofNat_add]
    grind
  rw [branchTarget, branchTarget, hend]

theorem readSlot_lockstep (f : Frame) (a : Option Address) {address address' : UInt64}
    {slot : Slot} (haddress : slot.source = .rel → address' + UInt64.ofNat d = address) :
    Lockstep d (readSlot f a address slot) (readSlot f a address' slot) := by
  cases hsource : slot.source <;> simp only [readSlot, hsource]
  case rm | rmReg | vecRm | vecRmReg | mmxRm | mmxRmReg | maskRm =>
    exact liftExcept_lockstep _
  case mem =>
    split
    · exact liftExcept_lockstep _
    · exact .fail _
  case segmentReg =>
    split
    · exact .fail _
    · exact .pure _
  case vecImm => exact Lockstep.byte.bind fun imm => .pure _
  case imm | offset => exact (Lockstep.unsigned _).bind fun value => .pure _
  case signedImm => exact (Lockstep.signed _).bind fun value => .pure _
  case rel =>
    refine (Lockstep.signed _).bind fun disp => .bind_used fun length => ?_
    rw [branchTarget_later f (haddress hsource)]
    exact .pure _
  case farPointer =>
    refine (Lockstep.unsigned _).bind fun offset => ?_
    exact (Lockstep.unsigned _).bind fun selector => .pure _
  all_goals exact .pure _

theorem readSlots_lockstep (f : Frame) (a : Option Address) {address address' : UInt64}
    {slots : List Slot}
    (haddress : ∀ slot ∈ slots, slot.source = .rel → address' + UInt64.ofNat d = address)
    (body : Body) :
    Lockstep d (readSlots f a address slots body) (readSlots f a address' slots body) := by
  induction slots generalizing body with
  | nil => exact .pure body
  | cons slot slots ih =>
      refine (readSlot_lockstep f a (haddress slot List.mem_cons_self)).bind fun value => ?_
      exact ih (fun s hs => haddress s (List.mem_cons_of_mem slot hs)) _

theorem readBody_of_operands {address : UInt64} {body : Body} {t t' : Tape}
    (hrun : (readOperands f address).inOperand t = .ok body t') :
    readBody f address t =
      if t'.used > maxLength then
        .error ⟨t'.start, .excessivePrefixes f.head.prefixes.count⟩ t'
      else .ok { body with operands := decorate f body.operands } t' := by
  rw [readBody, bind_ok hrun, bind_ok (show Read.used t' = .ok t'.used t' from rfl)]
  split <;> rfl

theorem readBody_of_operands_error {address : UInt64} {e : DecodeError} {t t' : Tape}
    (hrun : (readOperands f address).inOperand t = .error e t') :
    readBody f address t = .error e t' :=
  bind_error hrun

/-- Where two instructions with alike frames lie: with a branch slot, they end at the same
address. -/
def Frame.EndTogether (f : Frame) (d : Nat) (address address' : UInt64) : Prop :=
  f.row.hasSource .rel = true → address' + UInt64.ofNat d = address

namespace Frame.Alike

variable {f' : Frame} {address address' : UInt64} {body : Body} {t t' : Tape}

theorem readOperands_lockstep (hf : f.Alike f') (hend : f.EndTogether d address address') :
    Lockstep d (X86.readOperands f address) (X86.readOperands f' address') := by
  rw [hf.readOperands]
  refine (readAddress_lockstep f).bind fun a => readSlots_lockstep f a ?_ _
  intro slot hslot hsource
  exact hend (List.any_eq_true.mpr ⟨slot, hslot, decide_eq_true hsource⟩)

/-- A body that stays short enough is read at a distance as it was. -/
theorem readBody_later (hf : f.Alike f') (hend : f.EndTogether d address address')
    (hrun : readBody f address t = .ok body t') (hfits : t'.used + d ≤ maxLength) :
    readBody f' address' (t.later d) = .ok body (t'.later d) := by
  obtain ⟨body₁, t₁, hoperands, -⟩ := of_bind_ok hrun
  rw [readBody_of_operands hoperands] at hrun
  split at hrun
  · cases hrun
  · cases hrun
    have hshort : ¬(t'.later d).used > maxLength := Nat.not_lt.mpr hfits
    have hlater := (hf.readOperands_lockstep hend).inOperand.run_ok hoperands
    rw [readBody_of_operands hlater, if_neg hshort, hf.decorate]

/-- A body is read at a distance as it was, unless it then is too long. -/
theorem readBody_matches (hf : f.Alike f') (hend : f.EndTogether d address address')
    (hcount : f'.head.prefixes.count = f.head.prefixes.count) (t : Tape) :
    Matches d (readBody f address t) (readBody f' address' (t.later d)) ∨
      ∃ body t', readBody f address t = .ok body t' ∧ t'.used ≤ maxLength ∧
        maxLength < t'.used + d ∧
        readBody f' address' (t.later d) =
          .error ⟨t'.start, .excessivePrefixes f.head.prefixes.count⟩ (t'.later d) := by
  have hoperands := (hf.readOperands_lockstep hend).inOperand t
  generalize hx : (X86.readOperands f address).inOperand t = x at hoperands
  generalize hy : (X86.readOperands f' address').inOperand (t.later d) = y at hoperands
  cases hoperands with
  | error t₁ hfault =>
      rw [readBody_of_operands_error hx, readBody_of_operands_error hy]
      exact .inl (.error t₁ hfault)
  | ok body t₁ =>
      rw [readBody_of_operands hx, readBody_of_operands hy, hf.decorate, hcount]
      by_cases hlong : t₁.used > maxLength
      · have hlater : (t₁.later d).used > maxLength :=
          Nat.lt_of_lt_of_le hlong (Nat.le_add_right _ d)
        rw [if_pos hlong, if_pos hlater]
        exact .inl (.error t₁ rfl)
      · rw [if_neg hlong]
        by_cases hlater : (t₁.later d).used > maxLength
        · rw [if_pos hlater]
          exact .inr ⟨_, t₁, rfl, Nat.le_of_not_lt hlong, hlater, rfl⟩
        · rw [if_neg hlater]
          exact .inl (.ok _ t₁)

end Frame.Alike

end MachineCode.X86
