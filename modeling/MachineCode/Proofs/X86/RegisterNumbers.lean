import MachineCode.Proofs.X86.MemoryRefs

/-!
# Register numbers

A slot takes the number of its register from a field of three or four bits, with
one or two extension bits in front. Outside 64-bit mode none of these extends
anything: there is no extension byte, the payload of a vector encoding loses its
extension bits when it is read, and of the vvvv field and of the register in an
immediate byte three bits are kept. So every number is below eight there, and no
operand names one of the registers that 64-bit mode added.

Which registers a slot can name is said once, by `Slot.Names`. Those of addresses
were looked at with the addresses, and of write masks there are only eight.
-/

namespace MachineCode

/-- The registers that an operand mentions: its own, those of its address, and the write mask. -/
def Operand.registers (o : Operand) : List Register :=
  (match o.kind with
    | .register r => [r]
    | .memory m => [m.segment, m.base, m.index]
    | .immediate _ | .floatImmediate _ => []) ++ [o.mask]

namespace X86

open Bytes Read

variable {f : Frame} {slot : Slot} {a : Option Address} {o : Operand} {number : UInt8}
  {r : Register} {t t' : Tape}

/-- The number of a register in its class; a register without others of its class has none. -/
def Register.number? : Register → Option Nat
  | .byte n | .word n | .dword n | .qword n | .control n | .debug n => some n.toNat
  | .highByte n => some n.toNat
  | .segment n => some n.val
  | .stack n | .mmx n | .opmask n => some n.toNat
  | .xmm n | .ymm n | .zmm n => some n.toNat
  | .absent | .ip | .eip | .rip | .flags | .status => none

/-- The byte registers that need an extension byte although their numbers are below eight. -/
def Register.extendedBytes : List Register :=
  [.byte 4, .byte 5, .byte 6, .byte 7]

example : Register.extendedBytes.map Register.name = ["spl", "bpl", "sil", "dil"] := by decide

/-- Whether naming the register takes no extension byte and no extension bit. -/
def Register.IsBasic (r : Register) : Prop :=
  (∀ n ∈ r.number?, n < 8) ∧ r ∉ extendedBytes

instance (r : Register) : Decidable r.IsBasic :=
  inferInstanceAs (Decidable (_ ∧ _))

/-- The registers that a slot can name. -/
inductive Slot.Names (f : Frame) (slot : Slot) : Register → Prop
  /-- The four byte registers of `Register.extendedBytes` take an extension byte. -/
  | general (number : UInt8) (extended : Bool) (hsource : slot.source.isGeneral = true)
      (hnumber : f.head.Reaches number)
      (hextended : extended = true → f.head.hasRex = true ∨ slot.source = .regV) :
      slot.Names f (.general number (slot.size.bits f) extended)
  | fixed (r : Register) (hsource : slot.source = .fixed r) : slot.Names f r
  | segment (n : Fin 6) : slot.Names f (.segment n)
  | control (number : UInt8) (hnumber : f.head.Reaches number) : slot.Names f (.controlOf number)
  | debug (number : UInt8) (hnumber : f.head.Reaches number) : slot.Names f (.debugOf number)
  | vector (number : UInt8) (bits : UInt16) (hnumber : f.head.Reaches number) :
      slot.Names f (.vectorOf number bits)
  | stack (n : BitVec 3) : slot.Names f (.stack n)
  | mmx (n : BitVec 3) : slot.Names f (.mmx n)
  | opmask (n : BitVec 3) : slot.Names f (.opmask n)

theorem eq_of_ofX86 {r r' : Register} (h : MachineCode.Register.ofX86 r' = .x86 r) : r' = r := by
  rw [MachineCode.Register.ofX86] at h
  split at h
  · cases h
  · cases h
    rfl

theorem Slot.Gives.names (ho : slot.Gives f a o) (hr : o.kind = .register (.x86 r)) :
    slot.Names f r := by
  have hnames {r' : Register} (hr' : OperandKind.register (.ofX86 r') = .register (.x86 r))
      (h : slot.Names f r') : slot.Names f r := by
    rw [← eq_of_ofX86 (OperandKind.register.inj hr')]
    exact h
  cases ho with
  | general number extended hsource hnumber hextended =>
      exact hnames hr (.general number extended hsource hnumber hextended)
  | fixed r' hsource => exact hnames hr (.fixed r' hsource)
  | segment n => exact hnames hr (.segment n)
  | control number hnumber => exact hnames hr (.control number hnumber)
  | debug number hnumber => exact hnames hr (.debug number hnumber)
  | opmask number => exact hnames hr (.opmask _)
  | vector number bits hnumber => exact hnames hr (.vector number bits hnumber)
  | mmx number => exact hnames hr (.mmx _)
  | stack n => exact hnames hr (.stack n)
  | immediate | target | memory | element | offset | string => cases hr

theorem Slot.Gives.mask_eq (ho : slot.Gives f a o) : o.mask = .absent := by
  cases ho <;> rfl

/-- What the registers of an operand are for. -/
structure Frame.Holds (f : Frame) (o : Operand) : Prop where
  register : ∀ r, o.kind = .register (.x86 r) → ∃ slot ∈ f.row.slots, slot.Names f r
  memory : ∀ m, o.kind = .memory m → f.Refers m
  mask : o.mask = .absent ∨ ∃ n, o.mask = .x86 (.opmask n)

theorem ofX86_opmask (f : Frame) :
    MachineCode.Register.ofX86 f.opmask = .absent ∨
      ∃ n, MachineCode.Register.ofX86 f.opmask = .x86 (.opmask n) := by
  rw [Frame.opmask]
  split
  · exact .inr ⟨_, rfl⟩
  · exact .inl rfl

theorem holds_of_readBody {address : UInt64} {body : Body} (hf : f.Chosen) (hs : f.head.Sound)
    (hrun : readBody f address t = .ok body t') : ∀ o ∈ body.operands, f.Holds o := by
  obtain ⟨a, t₁, t₂, operands, haddress, hbody, hgiven⟩ := given_of_readBody hrun
  intro o ho
  obtain ⟨o', ho', hkind, -, hmask⟩ := mem_decorate (hbody ▸ ho)
  obtain ⟨slot, hslot, hgives⟩ := hgiven o' ho'
  constructor
  · rw [hkind]
    exact fun r hr => ⟨slot, hslot, hgives.names hr⟩
  · intro m hm
    have hmakes := hgives.makes
    rw [← hkind, hm] at hmakes
    refine hmakes.refers hf hs ?_ hslot
    rintro x rfl
    exact readAddress_fits hs haddress
  · rcases hmask with hmask | hmask
    · exact .inl (hmask.trans hgives.mask_eq)
    · rw [hmask]
      exact ofX86_opmask f

/-- Where a register that an operand mentions comes from. -/
inductive Frame.Supplies (f : Frame) (o : Operand) : Register → Prop
  | slot (r : Register) (slot : Slot) (hslot : slot ∈ f.row.slots)
      (hkind : o.kind = .register (.x86 r)) (hnames : slot.Names f r) : f.Supplies o r
  | address (n : BitVec 4) (hn : HasRegister f.head.mode n) :
      f.Supplies o (.ofWidth f.addressSize n)
  | pointer (hmode : f.head.mode = .w64) :
      f.Supplies o (.instructionPointer f.addressSize.bits)
  | segment (n : Fin 6) : f.Supplies o (.segment n)
  | opmask (n : BitVec 3) : f.Supplies o (.opmask n)

theorem Frame.Refers.supplies {m : MemoryRef} (hm : f.Refers m)
    (hr : .x86 r ∈ [m.segment, m.base, m.index]) : f.Supplies o r := by
  simp only [List.mem_cons, List.not_mem_nil, or_false] at hr
  rcases hr with hr | hr | hr
  · rcases hm.segment with h | ⟨n, h⟩ <;> rw [h] at hr <;> cases hr
    exact .segment n
  · rcases hm.combines.base with h | ⟨n, hn, h⟩ | ⟨hmode, -, h⟩ <;> rw [h] at hr <;> cases hr
    · exact .address n hn
    · exact .pointer hmode
  · rcases hm.combines.index with ⟨h, -⟩ | ⟨n, -, hn, h⟩ <;> rw [h] at hr <;> cases hr
    exact .address n hn

theorem Frame.Holds.supplies (ho : f.Holds o) (hr : .x86 r ∈ o.registers) : f.Supplies o r := by
  rcases List.mem_append.mp hr with hr | hr
  · cases hkind : o.kind with
    | register r' =>
        simp only [hkind, List.mem_singleton] at hr
        obtain ⟨slot, hslot, hnames⟩ := ho.register r (hr ▸ hkind)
        exact .slot r slot hslot (hr ▸ hkind) hnames
    | memory m =>
        rw [hkind] at hr
        exact (ho.memory m hkind).supplies hr
    | immediate _ | floatImmediate _ =>
        rw [hkind] at hr
        cases hr
  · rw [List.mem_singleton] at hr
    rcases ho.mask with h | ⟨n, h⟩ <;> rw [h] at hr <;> cases hr
    exact .opmask n

/-- A frame and a body that a decode read, and what the registers of its operands are for. -/
theorem holds_of_decodeOne {e : Engine} {bytes : List UInt8} {offset next : Nat}
    {address : UInt64} {i : Instruction} (he : e.architecture = .x86)
    (h : e.decodeOne bytes offset address = .ok (i, next)) :
    ∃ f body t, readFrame e.mode.width { rest := i.bytes } = .ok f t ∧
      i = instructionOf f body i.bytes address e.options.detail ∧ ∀ o ∈ i.operands, f.Holds o := by
  obtain ⟨f, body, t, hframe, hbody, hi⟩ := body_of_decodeOne he h
  obtain ⟨-, ⟨run, hm⟩, hf⟩ := readFrame_madeOf hframe
  refine ⟨f, body, t, hframe, hi, ?_⟩
  rw [hi]
  exact holds_of_readBody hf hm.sound hbody

/-- What of a slot decides whether the registers it names are basic. -/
def Slot.isBasic (slot : Slot) : Bool :=
  match slot.source with
  | .fixed r => decide r.IsBasic
  | .regV => decide (slot.size = .y)
  | _ => true

theorem isBasic_table : ∀ r ∈ table, ∀ slot ∈ r.slots, slot.isBasic = true := by
  decide +kernel

theorem Register.isBasic_of_number {n : Nat} (hnumber : r.number? = some n) (hn : n < 8)
    (hr : r ∉ extendedBytes) : r.IsBasic := by
  refine ⟨fun k hk => ?_, hr⟩
  rw [hnumber] at hk
  cases hk
  exact hn

theorem toNat_setWidth_lt (hn : number < 8) (w : Nat) :
    (number.toBitVec.setWidth w).toNat < 8 := by
  rw [BitVec.toNat_setWidth]
  exact Nat.lt_of_le_of_lt (Nat.mod_le _ _) hn

theorem Register.isBasic_general {bits : UInt16} {extended : Bool} (hn : number < 8)
    (hbits : bits = 8 → extended = false) : (general number bits extended).IsBasic := by
  have hlow := toNat_setWidth_lt hn 4
  rw [general]
  generalize number.toBitVec.setWidth 4 = n at hlow ⊢
  by_cases h8 : bits = 8
  · rw [if_pos h8, hbits h8]
    -- the numbers from four on mean the second bytes of the first four registers
    by_cases hfour : 4 ≤ n
    · have hhigh : (!false && decide (4 ≤ n) && decide (n < 8)) = true := by
        rw [decide_eq_true hfour, decide_eq_true (BitVec.lt_def.mpr hlow)]
        rfl
      rw [if_pos hhigh]
      refine isBasic_of_number rfl (Nat.lt_trans (n.setWidth 2).isLt (by decide)) ?_
      simp [extendedBytes]
    · have hlowest : (!false && decide (4 ≤ n) && decide (n < 8)) = false := by
        rw [decide_eq_false hfour]
        rfl
      rw [if_neg (by rw [hlowest]; exact Bool.false_ne_true)]
      refine isBasic_of_number rfl hlow fun hr => hfour ?_
      simp only [extendedBytes, List.mem_cons, List.not_mem_nil, or_false, byte.injEq] at hr
      rcases hr with rfl | rfl | rfl | rfl <;> decide
  · rw [if_neg h8]
    split
    · exact isBasic_of_number rfl hlow (by simp [extendedBytes])
    · split
      · exact isBasic_of_number rfl hlow (by simp [extendedBytes])
      · split
        · exact isBasic_of_number rfl hlow (by simp [extendedBytes])
        · decide

theorem Register.isBasic_vectorOf (hn : number < 8) (bits : UInt16) :
    (vectorOf number bits).IsBasic := by
  have hlow := toNat_setWidth_lt hn 5
  simp only [vectorOf]
  split
  · exact isBasic_of_number rfl hlow (by simp [extendedBytes])
  · split
    · exact isBasic_of_number rfl hlow (by simp [extendedBytes])
    · exact isBasic_of_number rfl hlow (by simp [extendedBytes])

theorem Register.isBasic_ofWidth {n : BitVec 4} (hn : n < 8) (w : Width) :
    (ofWidth w n).IsBasic := by
  cases w <;> exact isBasic_of_number rfl (BitVec.lt_def.mp hn) (by simp [ofWidth, extendedBytes])

theorem Slot.Names.isBasic (hmode : f.head.mode ≠ .w64) (hu : f.head.Unextended)
    (hslot : slot.isBasic = true) (hr : slot.Names f r) : r.IsBasic := by
  cases hr with
  | general number extended hsource hnumber hextended =>
      refine Register.isBasic_general (hnumber hmode hu) fun hbits => ?_
      -- only a slot that takes no byte register counts as extended without an extension byte
      refine Bool.eq_false_iff.mpr fun htrue => ?_
      rcases hextended htrue with hrex | hregV
      · rw [hu.hasRex] at hrex
        cases hrex
      · simp only [Slot.isBasic, hregV, decide_eq_true_eq] at hslot
        rw [hslot, Size.bits] at hbits
        split at hbits <;> cases hbits
  | fixed r hsource =>
      simp only [Slot.isBasic, hsource, decide_eq_true_eq] at hslot
      exact hslot
  | segment n => exact Register.isBasic_of_number rfl (by omega) (by simp [Register.extendedBytes])
  | control number hnumber | debug number hnumber =>
      exact Register.isBasic_of_number rfl (toNat_setWidth_lt (hnumber hmode hu) 4)
        (by simp [Register.controlOf, Register.debugOf, Register.extendedBytes])
  | vector number bits hnumber => exact Register.isBasic_vectorOf (hnumber hmode hu) bits
  | stack n | mmx n | opmask n =>
      exact Register.isBasic_of_number rfl n.isLt (by simp [Register.extendedBytes])

theorem Frame.Supplies.isBasic (hf : f.Chosen) (hmode : f.head.mode ≠ .w64)
    (hu : f.head.Unextended) (hr : f.Supplies o r) : r.IsBasic := by
  cases hr with
  | slot r slot hslot hkind hnames =>
      exact hnames.isBasic hmode hu
        (isBasic_table f.row (mem_candidates.mp hf.mem).1 slot hslot)
  | address n hn => exact Register.isBasic_ofWidth (hn.resolve_left hmode) _
  | pointer hlong => exact absurd hlong hmode
  | segment n => exact Register.isBasic_of_number rfl (by omega) (by simp [Register.extendedBytes])
  | opmask n => exact Register.isBasic_of_number rfl n.isLt (by simp [Register.extendedBytes])

/-- Outside 64-bit mode no operand mentions a register that only 64-bit mode has, whatever the
extension bits, the vvvv field and the register in the immediate byte say. -/
theorem decodeOne_registers_basic {e : Engine} {bytes : List UInt8} {offset next : Nat}
    {address : UInt64} {i : Instruction} (he : e.architecture = .x86)
    (hmode : e.mode.width ≠ .w64) (h : e.decodeOne bytes offset address = .ok (i, next)) :
    ∀ o ∈ i.operands, ∀ r, .x86 r ∈ o.registers → r.IsBasic := by
  obtain ⟨f, body, t, hframe, -, hholds⟩ := holds_of_decodeOne he h
  obtain ⟨hwidth, ⟨run, hm⟩, hf⟩ := readFrame_madeOf hframe
  rw [← hwidth] at hmode
  intro o ho r hr
  exact ((hholds o ho).supplies hr).isBasic hf hmode (hm.unextended hmode)

/-- `vblendvpd xmm0, xmm1, xmm2, xmm7`, with the bit B and the top bits of the vvvv field and of the
immediate byte set. -/
theorem decodeOne_registers_basic_vblendvpd :
    ∃ i, Engine.x86Of32.decodeOne [0xc4, 0xc3, 0x31, 0x4b, 0xc2, 0xf0] 0 0x1000 = .ok (i, 6) ∧
      i.operands.map (·.kind) = [.register (.x86 (.xmm 0)), .register (.x86 (.xmm 1)),
        .register (.x86 (.xmm 2)), .register (.x86 (.xmm 7))] ∧
      ∀ o ∈ i.operands, ∀ r, .x86 r ∈ o.registers → r.IsBasic := by
  have hread : (Engine.x86Of32.decodeOne [0xc4, 0xc3, 0x31, 0x4b, 0xc2, 0xf0] 0 0x1000).map
      (fun d => (d.1.operands.map (·.kind), d.2)) =
        .ok ([.register (.x86 (.xmm 0)), .register (.x86 (.xmm 1)),
          .register (.x86 (.xmm 2)), .register (.x86 (.xmm 7))], 6) := by
    decide +kernel
  obtain ⟨i, next, hrun, hshown⟩ := Engine.exists_of_map hread
  simp only [Prod.mk.injEq] at hshown
  obtain ⟨hkinds, rfl⟩ := hshown
  exact ⟨i, hrun, hkinds, decodeOne_registers_basic rfl (by decide) hrun⟩

end X86

end MachineCode
