import MachineCode.Proofs.Mips.Assembly
import MachineCode.Proofs.Truncation
import MachineCode.Proofs.X86.Slots

/-!
# Register operands

A general register of an impossible width does not exist, and asking for one gives
no register at all. So whether every register operand is a register depends on
the sizes of the slots: each size that a slot gives to a general register must
come out as 8, 16, 32 or 64 bits in every mode and under every prefix. That is a
matter of the table, looked up once. Vector, stack and `mm` registers are given
their own size, whatever the slot says; control, debug and opmask registers are
given the size of the slot, whatever their own.
-/

namespace MachineCode

namespace X86

/-- The sizes that are widths of general registers whatever the frame. -/
def generalSizes : List Size :=
  [.b8, .b16, .b32, .b64, .v, .z, .y, .native]

/-- The number of bits of a size that does not depend on the frame. -/
def Size.constant? : Size → Option UInt16
  | .b8 => some 8
  | .b16 => some 16
  | .b32 => some 32
  | .b64 => some 64
  | .b80 => some 80
  | .b128 => some 128
  | .b256 => some 256
  | .b512 => some 512
  | _ => none

/-- Whether a slot that takes its register's size from the row takes the right one. -/
def Slot.sizesRegister (slot : Slot) : Bool :=
  match slot.source with
  | .fixed r => decide (r ≠ .absent ∧ slot.size.constant? = some r.size)
  | .segmentReg => decide (slot.size = .b16)
  | source => !source.isGeneral || decide (slot.size ∈ generalSizes)

theorem sizesRegister_table : ∀ r ∈ table, ∀ slot ∈ r.slots, slot.sizesRegister = true := by
  decide +kernel

variable {f : Frame} {slot : Slot}

theorem Frame.Chosen.sizesRegister (hf : f.Chosen) (hslot : slot ∈ f.row.slots) :
    slot.sizesRegister = true :=
  sizesRegister_table f.row (mem_candidates.mp hf.mem).1 slot hslot

theorem Slot.size_of_general (hsize : slot.sizesRegister = true)
    (hsource : slot.source.isGeneral = true) : slot.size ∈ generalSizes := by
  rw [sizesRegister] at hsize
  split at hsize
  · next heq =>
      rw [heq] at hsource
      cases hsource
  · next heq =>
      rw [heq] at hsource
      cases hsource
  · rw [hsource, Bool.not_true, Bool.false_or, decide_eq_true_eq] at hsize
    exact hsize

theorem Size.bits_of_constant {s : Size} {bits : UInt16} (hs : s.constant? = some bits)
    (f : Frame) : s.bits f = bits := by
  cases s <;> cases hs <;> rfl

/-- Sizes that follow the operand size or the mode stay among the widths of general registers. -/
theorem Size.bits_of_general {s : Size} (hs : s ∈ generalSizes) (f : Frame) :
    s.bits f ∈ [(8 : UInt16), 16, 32, 64] := by
  have hchoice (c : Prop) [Decidable c] (x y : UInt16) (hx : x ∈ [(8 : UInt16), 16, 32, 64])
      (hy : y ∈ [(8 : UInt16), 16, 32, 64]) :
      (if c then x else y) ∈ [(8 : UInt16), 16, 32, 64] := by
    split
    · exact hx
    · exact hy
  cases s
  case b8 | b16 | b32 | b64 =>
    rw [bits]
    decide
  case v =>
    rw [bits]
    cases f.operandSize <;> decide
  case z | y | native => exact hchoice _ _ _ (by decide) (by decide)
  all_goals exact absurd hs (by decide)

theorem Register.size_general (number : UInt8) {bits : UInt16} (extended : Bool)
    (hbits : bits ∈ [(8 : UInt16), 16, 32, 64]) :
    (Register.general number bits extended).size = bits := by
  simp only [List.mem_cons, List.not_mem_nil, or_false] at hbits
  rcases hbits with rfl | rfl | rfl | rfl
  · simp only [Register.general, if_true]
    split <;> rfl
  · rfl
  · rfl
  · rfl

/-- A register operand of this size is a register, and has that size unless it is a control, debug
or opmask register. -/
def Register.IsOperand (r : Register) (size : UInt16) : Prop :=
  r ≠ .absent ∧ (r.kind ∉ [RegisterKind.control, .debug, .mask] → size = r.size)

theorem Register.IsOperand.of_size {r : Register} {size : UInt16} (hr : r.size = size)
    (hpos : size ≠ 0) : r.IsOperand size := by
  refine ⟨?_, fun _ => hr.symm⟩
  rintro rfl
  exact hpos hr.symm

theorem Slot.Makes.exists_register {a : Option Address} {k : OperandKind} {size : UInt16}
    (hmade : slot.Makes f a k size) {r : MachineCode.Register} (hk : k = .register r)
    (hslot : slot.sizesRegister = true) : ∃ r', r = .ofX86 r' ∧ r'.IsOperand size := by
  cases hmade with
  -- the one case where no register at all could come out
  | general number extended hsource =>
      cases hk
      have hbits := Size.bits_of_general (size_of_general hslot hsource) f
      refine ⟨_, rfl, .of_size (Register.size_general number extended hbits) ?_⟩
      rintro hzero
      rw [hzero] at hbits
      exact absurd hbits (by decide)
  | fixed r' hsource =>
      cases hk
      simp only [sizesRegister, hsource, decide_eq_true_eq] at hslot
      exact ⟨r', rfl, hslot.1, fun _ => Size.bits_of_constant hslot.2 f⟩
  | segment n hsource =>
      cases hk
      simp only [sizesRegister, hsource, decide_eq_true_eq] at hslot
      refine ⟨.segment n, rfl, Register.noConfusion, fun _ => ?_⟩
      rw [hslot]
      rfl
  | special r' hkind =>
      cases hk
      refine ⟨r', rfl, ?_, fun h => absurd hkind h⟩
      rintro rfl
      exact absurd hkind (by decide)
  | whole r' hr =>
      cases hk
      exact ⟨r', rfl, hr, fun _ => rfl⟩
  | immediate | address | offset | string => cases hk

end X86

namespace Mips

theorem exists_register_of_operand? {v : Variant} {address : UInt64} {w : Word} {slot : Slot}
    {o : Operand} {r : MachineCode.Register} (h : v.operand? address w slot = some o)
    (hr : o.kind = .register r) :
    ∃ r', r = .mips r' ∧ r' ≠ .absent ∧ o.size = r'.size v.generalBits := by
  cases hsource : slot.source <;> simp only [Variant.operand?, hsource] at h
  case rs | rt | rd | fs | ft | fd | branchCondition | compareCondition =>
    cases h
    cases hr
    exact ⟨_, rfl, Register.noConfusion, rfl⟩
  case insertSize =>
    split at h
    · cases h
    · cases h
      cases hr
  all_goals
    cases h
    cases hr

end Mips

/-- Every register operand of a decoded instruction is a register. Its size is that of the operand:
on x86 apart from control, debug and opmask registers, on MIPS with the width that general registers
have in the mode. -/
theorem Engine.register_of_decodeOne {e : Engine} {bytes : List UInt8} {offset next : Nat}
    {address : UInt64} {i : Instruction} (h : e.decodeOne bytes offset address = .ok (i, next)) :
    ∀ o ∈ i.operands, ∀ r, o.kind = .register r →
      match e.architecture with
      | .x86 => ∃ r', r = .x86 r' ∧ r' ≠ .absent ∧
          (r'.kind ∉ [RegisterKind.control, .debug, .mask] → o.size = r'.size)
      | .mips => ∃ r', r = .mips r' ∧ r' ≠ .absent ∧
          o.size = r'.size (if e.mode.width = .w64 then 64 else 32) := by
  intro o ho r hr
  cases he : e.architecture with
  | x86 =>
      obtain ⟨f, a, ⟨t, hframe⟩, -, -, hmade⟩ := X86.made_of_decodeOne he h
      obtain ⟨-, -, -, -, -, -, -, hf⟩ := X86.readFrame_took hframe
      obtain ⟨slot, hslot, hslotMakes⟩ := hmade o ho
      obtain ⟨r', rfl, hr', hsize⟩ := hslotMakes.exists_register hr (hf.sizesRegister hslot)
      exact ⟨r', if_neg hr', hr', hsize⟩
  | mips =>
      obtain ⟨w, row, operands, t, -, hrun, rfl, -⟩ := Mips.parts_of_decodeOne he h
      obtain ⟨slot, -, hslot⟩ := Mips.exists_of_mem_mapM (Mips.of_readParts hrun).2.2 ho
      obtain ⟨r', rfl, hr', hsize⟩ := Mips.exists_register_of_operand? hslot hr
      refine ⟨r', rfl, hr', ?_⟩
      rw [hsize, Mips.Variant.generalBits, Mips.Variant.ofMode, Width.isLong]
      simp only [decide_eq_true_eq]

/-- The operands of `movzx r8w, r12b` have 16 and 8 bits, and `ra` has 32 in the mode of
`jr ra`. -/
theorem Engine.register_of_decodeOne_movzx_jr :
    (∃ i o o', x86Of64.decodeOne [0x66, 0x45, 0x0f, 0xb6, 0xc4] 0 0x1000 = .ok (i, 5) ∧
      o ∈ i.operands ∧ o.kind = .register (.x86 (.word 8)) ∧ o.size = 16 ∧
      o' ∈ i.operands ∧ o'.kind = .register (.x86 (.byte 12)) ∧ o'.size = 8) ∧
    ∃ i o, mipsOf32.decodeOne [0x08, 0x00, 0xe0, 0x03] 0 0x1000 = .ok (i, 4) ∧
      o ∈ i.operands ∧ o.kind = .register (.mips .ra) ∧ o.size = 32 := by
  have hmovzx : (x86Of64.decodeOne [0x66, 0x45, 0x0f, 0xb6, 0xc4] 0 0x1000).map
      (fun r => (r.1.operands.map Operand.kind, r.2)) =
        .ok ([.register (.x86 (.word 8)), .register (.x86 (.byte 12))], 5) := by
    decide +kernel
  have hjr : (mipsOf32.decodeOne [0x08, 0x00, 0xe0, 0x03] 0 0x1000).map
      (fun r => (r.1.operands.map Operand.kind, r.2)) = .ok ([.register (.mips .ra)], 4) := by
    decide +kernel
  constructor
  · obtain ⟨i, next, hrun, hshown⟩ := exists_of_map hmovzx
    simp only [Prod.mk.injEq] at hshown
    obtain ⟨hkinds, rfl⟩ := hshown
    have hmem (k : OperandKind)
        (hk : k ∈ [OperandKind.register (.x86 (.word 8)), .register (.x86 (.byte 12))]) :
        ∃ o ∈ i.operands, o.kind = k := by
      rw [← hkinds] at hk
      exact List.mem_map.mp hk
    obtain ⟨o, ho, hkind⟩ := hmem _ List.mem_cons_self
    obtain ⟨o', ho', hkind'⟩ := hmem _ (List.mem_cons_of_mem _ List.mem_cons_self)
    obtain ⟨_, ⟨⟩, -, hsize⟩ := register_of_decodeOne hrun o ho _ hkind
    obtain ⟨_, ⟨⟩, -, hsize'⟩ := register_of_decodeOne hrun o' ho' _ hkind'
    exact ⟨i, o, o', hrun, ho, hkind, hsize (by decide), ho', hkind', hsize' (by decide)⟩
  · obtain ⟨i, next, hrun, hshown⟩ := exists_of_map hjr
    simp only [Prod.mk.injEq] at hshown
    obtain ⟨hkinds, rfl⟩ := hshown
    obtain ⟨o, ho, hkind⟩ : ∃ o ∈ i.operands, o.kind = .register (.mips .ra) := by
      rw [← List.mem_map, hkinds]
      exact List.mem_cons_self
    obtain ⟨_, ⟨⟩, -, hsize⟩ := register_of_decodeOne hrun o ho _ hkind
    exact ⟨i, o, hrun, ho, hkind, hsize⟩

end MachineCode
