import MachineCode.Proofs.RegisterOperands
import MachineCode.Proofs.X86.ImplicitRegisters

/-!
# 64-bit registers outside 64-bit mode

Outside 64-bit mode no size comes to 64 bits: neither the operand size nor the
address size is ever that wide there, and the W bit of a payload has no say. Rows
can still write down what no size rule changes. Some name a 64-bit register among
the registers they use without an operand; some give a general register 64 bits
and ask for the W bit, which a vector encoding has in every mode, where the
legacy encoding has it in an extension byte.

So 64-bit registers do turn up, and this says exactly where: the instructions are
listed, and the table is looked up once to see that there are no others.
-/

namespace MachineCode

/-- The registers that an instruction reports: those of its operands, those it reads, and those it
writes. -/
def Instruction.reported (i : Instruction) : List Register :=
  i.operands.flatMap Operand.registers ++ i.registersRead ++ i.registersWritten

theorem Operand.mem_registers_of_read {o : Operand} {r : Register} (hr : r ∈ o.registersRead) :
    r ∈ o.registers := by
  rcases List.mem_append.mp hr with hr | hr
  · refine List.mem_append_left _ ?_
    cases hkind : o.kind with
    | register r' =>
        simp only [hkind] at hr ⊢
        split at hr
        · exact hr
        · cases hr
    | memory m =>
        simp only [hkind] at hr ⊢
        exact (List.mem_filter.mp hr).1
    | immediate _ | floatImmediate _ =>
        simp only [hkind] at hr
        cases hr
  · exact List.mem_append_right _ hr

theorem Operand.mem_registers_of_written {o : Operand} {r : Register}
    (hr : r ∈ o.registersWritten) : r ∈ o.registers := by
  refine List.mem_append_left _ ?_
  rw [registersWritten] at hr
  split at hr
  · next hkind =>
      rw [hkind]
      split at hr
      · exact hr
      · cases hr
  · cases hr

/-- A register is reported as a register of an operand, or as one that is used without. -/
theorem Instruction.mem_reported {i : Instruction} {r : X86.Register} :
    .x86 r ∈ i.reported ↔
      (∃ o ∈ i.operands, .x86 r ∈ o.registers) ∨
        .x86 r ∈ i.implicitReads ++ i.implicitWrites := by
  have hpresent : Register.present (.x86 r) = true := decide_eq_true Register.noConfusion
  simp only [reported, registersRead, registersWritten, List.mem_append, mem_distinct,
    List.mem_filter, List.mem_flatMap, hpresent, and_true]
  constructor
  · rintro ((h | h | ⟨o, ho, h⟩) | h | ⟨o, ho, h⟩)
    · exact .inl h
    · exact .inr (.inl h)
    · exact .inl ⟨o, ho, o.mem_registers_of_read h⟩
    · exact .inr (.inr h)
    · exact .inl ⟨o, ho, o.mem_registers_of_written h⟩
  · rintro (h | h | h)
    · exact .inl (.inl h)
    · exact .inl (.inr (.inl h))
    · exact .inr (.inl h)

namespace X86

open Bytes Read

variable {f : Frame} {h : Head} {mode : Width} {slot : Slot} {r : Register} {t t' : Tape}

/-- Whether a register is a general register of 64 bits or the instruction pointer of 64-bit
mode. -/
def Register.isQuad : Register → Bool
  | .qword _ | .rip => true
  | _ => false

theorem Register.isQuad_general (number : UInt8) (bits : UInt16) (extended : Bool) :
    (general number bits extended).isQuad = true ↔ bits = 64 := by
  rw [general]
  by_cases h8 : bits = 8
  · rw [if_pos h8, h8]
    split <;> exact iff_of_false Bool.false_ne_true (by decide)
  by_cases h16 : bits = 16
  · rw [if_neg h8, if_pos h16, h16]
    exact iff_of_false Bool.false_ne_true (by decide)
  by_cases h32 : bits = 32
  · rw [if_neg h8, if_neg h16, if_pos h32, h32]
    exact iff_of_false Bool.false_ne_true (by decide)
  rw [if_neg h8, if_neg h16, if_neg h32]
  split
  · next h64 => exact iff_of_true rfl h64
  · next h64 => exact iff_of_false Bool.false_ne_true h64

theorem Register.kind_general (number : UInt8) (bits : UInt16) (extended : Bool) :
    (general number bits extended).kind = .general := by
  rw [general]
  repeat' split
  all_goals rfl

/-- What a frame outside 64-bit mode is like. -/
structure Frame.IsNarrow (f : Frame) : Prop where
  mode : f.head.mode ≠ .w64
  operandSize : f.operandSize ≠ .w64
  addressSize : f.addressSize ≠ .w64

theorem operandSizeOf_ne (hmode : h.mode ≠ .w64) (row : Row) : operandSizeOf h row ≠ .w64 := by
  have hlong : h.mode.isLong = false := decide_eq_false hmode
  rw [operandSizeOf, hlong]
  simp only [Bool.false_and, Bool.false_eq_true, if_false]
  repeat' split
  all_goals decide

theorem addressSizeOf_ne (hmode : h.mode ≠ .w64) : addressSizeOf h ≠ .w64 := by
  rw [addressSizeOf]
  split
  · next hm _ => exact absurd hm hmode
  · next hm _ => exact absurd hm hmode
  all_goals decide

theorem Frame.Chosen.isNarrow (hf : f.Chosen) (hmode : f.head.mode ≠ .w64) : f.IsNarrow where
  mode := hmode
  operandSize := by
    rw [hf.operandSize_eq]
    exact operandSizeOf_ne hmode f.row
  addressSize := by
    rw [hf.addressSize_eq]
    exact addressSizeOf_ne hmode

theorem Width.bits_ne {w : Width} (hw : w ≠ .w64) : w.bits ≠ 64 := by
  cases w with
  | w16 => decide
  | w32 => decide
  | w64 => exact absurd rfl hw

theorem Size.bits_of_narrow (hf : f.IsNarrow) {s : Size} (hs : s ∈ generalSizes) :
    s.bits f = 64 ↔ s = .b64 := by
  have hlong : f.head.mode.isLong = false := decide_eq_false hf.mode
  cases s
  case b64 => exact iff_of_true rfl rfl
  case b8 | b16 | b32 => exact iff_of_false (by rw [bits]; decide) Size.noConfusion
  case v => exact iff_of_false (Width.bits_ne hf.operandSize) Size.noConfusion
  case z =>
    refine iff_of_false ?_ Size.noConfusion
    rw [bits]
    split <;> decide
  case y =>
    refine iff_of_false ?_ Size.noConfusion
    rw [bits, if_neg hf.operandSize]
    decide
  case native =>
    refine iff_of_false ?_ Size.noConfusion
    rw [bits, hlong]
    decide
  all_goals exact absurd hs (by decide)

/-- The W bit of the legacy encoding is in the extension byte. -/
theorem Head.Unextended.w_legacy (hu : h.Unextended) (hlegacy : h.encoding = .legacy) :
    h.w = false := by
  rw [Head.w, Head.extensionBit, if_pos hlegacy, hu.rex_eq]
  rfl

/-- Whether a row can apply outside 64-bit mode. -/
def Row.isNarrow (r : Row) : Bool :=
  decide (r.pattern.scope ≠ .only64) &&
    !(decide (r.pattern.encoding = .legacy) && decide (r.pattern.w = some true))

theorem readFrame_acceptsHead (hrun : readFrame mode t = .ok f t') :
    f.row.pattern.acceptsHead f.head = true := by
  obtain ⟨t₁, t₂, -, -, hrow⟩ := of_readFrame hrun
  exact selectRow_acceptsHead hrow

theorem isNarrow_of_acceptsHead (hf : f.Chosen) (hmode : f.head.mode ≠ .w64)
    (hu : f.head.Unextended) (haccepts : f.row.pattern.acceptsHead f.head = true) :
    f.row.isNarrow = true := by
  simp only [Pattern.acceptsHead, Bool.and_eq_true] at haccepts
  obtain ⟨⟨⟨⟨-, hw⟩, -⟩, hscope⟩, -⟩ := haccepts
  rw [Row.isNarrow, Bool.and_eq_true]
  constructor
  · refine decide_eq_true fun honly => ?_
    rw [honly] at hscope
    exact hmode (of_decide_eq_true hscope)
  · rw [Bool.not_eq_true', Bool.and_eq_false_iff]
    by_cases hlegacy : f.row.pattern.encoding = .legacy
    · refine .inr (decide_eq_false fun hwide => ?_)
      have henc : f.head.encoding = .legacy := by
        rw [← (mem_candidates.mp hf.mem).2.1, hlegacy]
      rw [hwide, hu.w_legacy henc] at hw
      cases hw
    · exact .inl (decide_eq_false hlegacy)

/-! ## The rows that place them

That a register has 64 bits in every mode is written in a row, while the statement names
instructions. So the table is asked for both at once: the names of a row are in the list
exactly if the row has such a register. -/

/-- The instructions that use a 64-bit register without naming it in an operand. -/
def implicitQuads : List Mnemonic :=
  [.xlatb, .monitor, .syscall, .sysret]

/-- The instructions whose general registers have 64 bits. -/
def operandQuads : List Mnemonic :=
  [.vmovq, .vpextrq, .vpinsrq, .kmovq, .vpbroadcastq]

/-- The names that a row may give. -/
def Naming.mnemonics : Naming → List Mnemonic
  | .always m => [m]
  | .byOperandSize m16 m32 m64 | .byAddressSize m16 m32 m64 => [m16, m32, m64]

theorem Frame.mnemonic_mem (f : Frame) : f.mnemonic ∈ f.row.naming.mnemonics := by
  have hpick (m16 m32 m64 : Mnemonic) (w : Width) :
      Frame.mnemonic.pick m16 m32 m64 w ∈ [m16, m32, m64] := by
    cases w <;> simp [Frame.mnemonic.pick]
  rw [Frame.mnemonic]
  cases f.row.naming with
  | always m => exact List.mem_singleton_self m
  | byOperandSize m16 m32 m64 | byAddressSize m16 m32 m64 => exact hpick m16 m32 m64 _

/-- Whether the register of a slot, if it is one, is a general register. -/
def Slot.isGeneral (slot : Slot) : Bool :=
  match slot.source with
  | .fixed r => decide (r.kind = .general)
  | source => source.isGeneral

/-- Whether a slot asks for a 64-bit register in every mode. -/
def Slot.isQuad (slot : Slot) : Bool :=
  match slot.source with
  | .fixed r => r.isQuad
  | source => source.isGeneral && decide (slot.size = .b64)

/-- Whether an implicit use is of a 64-bit register in every mode. -/
def Implicit.isQuad : Implicit → Bool
  | .reg r => r.isQuad
  | _ => false

/-- Whether the names of a row tell which of its registers have 64 bits. -/
def Row.placesQuads (row : Row) : Bool :=
  row.naming.mnemonics.all fun m =>
    (decide (m ∈ implicitQuads) ==
      (row.implicitReads ++ row.implicitWrites).any Implicit.isQuad) &&
    row.slots.all fun slot => slot.isQuad == (slot.isGeneral && decide (m ∈ operandQuads))

theorem placesQuads_table : ∀ row ∈ table, row.isNarrow = true → row.placesQuads = true := by
  decide +kernel

/-- What the name of an instruction tells outside 64-bit mode. -/
structure Frame.PlacesQuads (f : Frame) : Prop where
  implicit : f.mnemonic ∈ implicitQuads ↔
    ∃ u ∈ f.row.implicitReads ++ f.row.implicitWrites, u.isQuad = true
  operand : ∀ slot ∈ f.row.slots,
    slot.isQuad = true ↔ slot.isGeneral = true ∧ f.mnemonic ∈ operandQuads

theorem Frame.Chosen.placesQuads (hf : f.Chosen) (hnarrow : f.row.isNarrow = true) :
    f.PlacesQuads := by
  have hrow := placesQuads_table f.row (mem_candidates.mp hf.mem).1 hnarrow
  have hname := List.all_eq_true.mp hrow f.mnemonic f.mnemonic_mem
  obtain ⟨himplicit, hslots⟩ := Bool.and_eq_true_iff.mp hname
  constructor
  · rw [← List.any_eq_true, ← beq_iff_eq.mp himplicit, decide_eq_true_eq]
  · intro slot hslot
    rw [beq_iff_eq.mp (List.all_eq_true.mp hslots slot hslot), Bool.and_eq_true,
      decide_eq_true_eq]

/-- A slot names general registers of its size, the register of its row, or none of them. -/
theorem Slot.Names.cases_general (hr : slot.Names f r) :
    (slot.source.isGeneral = true ∧ ∃ number extended,
      r = .general number (slot.size.bits f) extended) ∨
    slot.source = .fixed r ∨ (r.kind ≠ .general ∧ r.isQuad = false) := by
  cases hr with
  | general number extended hsource => exact .inl ⟨hsource, number, extended, rfl⟩
  | fixed r hsource => exact .inr (.inl hsource)
  | vector number bits =>
      refine .inr (.inr ?_)
      simp only [Register.vectorOf]
      split
      · exact ⟨RegisterKind.noConfusion, rfl⟩
      · split <;> exact ⟨RegisterKind.noConfusion, rfl⟩
  | segment _ | control _ | debug _ | stack _ | mmx _ | opmask _ =>
      exact .inr (.inr ⟨RegisterKind.noConfusion, rfl⟩)

theorem Source.isGeneral_slot (hsource : slot.source.isGeneral = true) :
    slot.isGeneral = true ∧ slot.isQuad = decide (slot.size = .b64) := by
  rw [Slot.isGeneral, Slot.isQuad]
  split
  · next heq =>
      rw [heq] at hsource
      cases hsource
  · exact ⟨hsource, by rw [hsource, Bool.true_and]⟩

theorem Slot.Names.isQuad (hf : f.IsNarrow) (hsize : slot.sizesRegister = true)
    (hr : slot.Names f r) (hquad : r.isQuad = true) : slot.isQuad = true := by
  rcases hr.cases_general with ⟨hsource, number, extended, rfl⟩ | hsource | ⟨-, hnone⟩
  · rw [(Source.isGeneral_slot hsource).2, decide_eq_true_eq]
    rw [Register.isQuad_general] at hquad
    exact (Size.bits_of_narrow hf (Slot.size_of_general hsize hsource)).mp hquad
  · simp only [Slot.isQuad, hsource]
    exact hquad
  · rw [hnone] at hquad
    cases hquad

theorem Slot.Names.kind_eq (hr : slot.Names f r) (hslot : slot.isGeneral = true)
    (hquad : r.isQuad = true) : r.kind = .general := by
  rcases hr.cases_general with ⟨-, number, extended, rfl⟩ | hsource | ⟨-, hnone⟩
  · exact Register.kind_general _ _ _
  · simp only [Slot.isGeneral, hsource, decide_eq_true_eq] at hslot
    exact hslot
  · rw [hnone] at hquad
    cases hquad

/-- What a slot that names a general register is like. -/
theorem Slot.Names.of_kind (hr : slot.Names f r) (hkind : r.kind = .general) :
    slot.isGeneral = true ∧ (slot.isQuad = true → r.isQuad = true) := by
  rcases hr.cases_general with ⟨hsource, number, extended, rfl⟩ | hsource | ⟨hother, -⟩
  · obtain ⟨hgeneral, hquad⟩ := Source.isGeneral_slot hsource
    refine ⟨hgeneral, fun hslot => ?_⟩
    rw [hquad, decide_eq_true_eq] at hslot
    rw [Register.isQuad_general, hslot]
    rfl
  · simp only [Slot.isGeneral, Slot.isQuad, hsource, decide_eq_true_eq]
    exact ⟨hkind, id⟩
  · exact absurd hkind hother

theorem Frame.Supplies.quad_operand {o : Operand} (hf : f.Chosen) (hnarrow : f.IsNarrow)
    (hplaces : f.PlacesQuads) (hr : f.Supplies o r) (hquad : r.isQuad = true) :
    f.mnemonic ∈ operandQuads ∧ o.kind = .register (.x86 r) ∧ r.kind = .general := by
  cases hr with
  | slot r slot hslot hkind hnames =>
      have hslotQuad := hnames.isQuad hnarrow (hf.sizesRegister hslot) hquad
      obtain ⟨hgeneral, hname⟩ := (hplaces.operand slot hslot).mp hslotQuad
      exact ⟨hname, hkind, hnames.kind_eq hgeneral hquad⟩
  | address n hn =>
      have haddress := hnarrow.addressSize
      generalize f.addressSize = w at haddress hquad
      cases w with
      | w16 | w32 => cases hquad
      | w64 => exact absurd rfl haddress
  | pointer hlong => exact absurd hlong hnarrow.mode
  | segment n | opmask n => cases hquad

theorem exists_quad_operand {operands : List Operand} (hf : f.Chosen) (hnarrow : f.IsNarrow)
    (hplaces : f.PlacesQuads) (hholds : ∀ o ∈ operands, f.Holds o) :
    (∃ o ∈ operands, ∃ r, .x86 r ∈ o.registers ∧ r.isQuad = true) ↔
      f.mnemonic ∈ operandQuads ∧
        ∃ o ∈ operands, ∃ r, o.kind = .register (.x86 r) ∧ r.kind = .general := by
  constructor
  · rintro ⟨o, ho, r, hr, hquad⟩
    obtain ⟨hname, hkind, hgeneral⟩ :=
      ((hholds o ho).supplies hr).quad_operand hf hnarrow hplaces hquad
    exact ⟨hname, o, ho, r, hkind, hgeneral⟩
  · rintro ⟨hname, o, ho, r, hkind, hgeneral⟩
    obtain ⟨slot, hslot, hnames⟩ := (hholds o ho).register r hkind
    obtain ⟨hslotGeneral, hquad⟩ := hnames.of_kind hgeneral
    refine ⟨o, ho, r, List.mem_append_left _ ?_, ?_⟩
    · rw [hkind]
      exact List.mem_singleton_self _
    · exact hquad ((hplaces.operand slot hslot).mpr ⟨hslotGeneral, hname⟩)

theorem Implicit.isQuad_of_resolve (hf : f.IsNarrow) {u : Implicit}
    (hquad : (u.resolve f).isQuad = true) : u.isQuad = true := by
  have hgeneral {w : Width} (hw : w ≠ .w64) (number : UInt8) :
      ¬(Register.general number w.bits false).isQuad = true := fun hnumber =>
    Width.bits_ne hw ((Register.isQuad_general _ _ _).mp hnumber)
  cases u with
  | reg r => exact hquad
  | ax | dx => exact absurd hquad (hgeneral hf.operandSize _)
  | cx | si | di => exact absurd hquad (hgeneral hf.addressSize _)
  | sp | bp => exact absurd hquad (hgeneral hf.mode _)
  | ip =>
      have hmode := hf.mode
      rw [resolve] at hquad
      generalize f.head.mode = w at hmode hquad
      cases w with
      | w16 | w32 => cases hquad
      | w64 => exact absurd rfl hmode

theorem quad_mem_implicitRegisters (hf : f.IsNarrow) {uses : List Implicit} {flags : Bool}
    (hquad : r.isQuad = true) :
    .x86 r ∈ implicitRegisters f uses flags ↔ ∃ u ∈ uses, u.resolve f = r := by
  rw [mem_implicitRegisters]
  constructor
  · rintro (⟨u, hu, hr⟩ | ⟨-, hr⟩ | ⟨-, -, hr⟩)
    · exact ⟨u, hu, eq_of_ofX86 hr⟩
    · cases hr
      cases hquad
    · cases hr
      have hcount : (Register.general 1 f.addressSize.bits false).isQuad = true := by
        rw [general_bits]
        exact hquad
      exact absurd ((Register.isQuad_general _ _ _).mp hcount) (Width.bits_ne hf.addressSize)
  · rintro ⟨u, hu, rfl⟩
    refine .inl ⟨u, hu, if_neg fun habsent => ?_⟩
    rw [habsent] at hquad
    cases hquad

theorem exists_quad_implicit (hf : f.IsNarrow) (hplaces : f.PlacesQuads) (reads writes : Bool) :
    (∃ r, .x86 r ∈ implicitRegisters f f.row.implicitReads reads ++
        implicitRegisters f f.row.implicitWrites writes ∧ r.isQuad = true) ↔
      f.mnemonic ∈ implicitQuads := by
  rw [hplaces.implicit]
  constructor
  · rintro ⟨r, hr, hquad⟩
    rw [List.mem_append, quad_mem_implicitRegisters hf hquad,
      quad_mem_implicitRegisters hf hquad] at hr
    rcases hr with ⟨u, hu, rfl⟩ | ⟨u, hu, rfl⟩
    · exact ⟨u, List.mem_append_left _ hu, Implicit.isQuad_of_resolve hf hquad⟩
    · exact ⟨u, List.mem_append_right _ hu, Implicit.isQuad_of_resolve hf hquad⟩
  · rintro ⟨u, hu, hquad⟩
    have hresolve : (u.resolve f).isQuad = true := by
      cases u with
      | reg r => exact hquad
      | _ => cases hquad
    refine ⟨u.resolve f, ?_, hresolve⟩
    rw [List.mem_append, quad_mem_implicitRegisters hf hresolve,
      quad_mem_implicitRegisters hf hresolve]
    rcases List.mem_append.mp hu with hu | hu
    · exact .inl ⟨u, hu, rfl⟩
    · exact .inr ⟨u, hu, rfl⟩

/-- Outside 64-bit mode an instruction reports a 64-bit general register, or `rip`, exactly if it is
one of four that use one without an operand, or one of five and has a general register as an
operand. -/
theorem decodeOne_reports_quad {e : Engine} {bytes : List UInt8} {offset next : Nat}
    {address : UInt64} {i : Instruction} (he : e.architecture = .x86)
    (hmode : e.mode.width ≠ .w64) (hdetail : e.options.detail = true)
    (h : e.decodeOne bytes offset address = .ok (i, next)) :
    (∃ r, .x86 r ∈ i.reported ∧ r.isQuad = true) ↔
      (∃ m ∈ implicitQuads, i.mnemonic = .x86 m) ∨
      (∃ m ∈ operandQuads, i.mnemonic = .x86 m ∧
        ∃ o ∈ i.operands, ∃ r, o.kind = .register (.x86 r) ∧ r.kind = .general) := by
  obtain ⟨f, body, t, hframe, hi, hholds⟩ := holds_of_decodeOne he h
  obtain ⟨hwidth, ⟨run, hm⟩, hf⟩ := readFrame_madeOf hframe
  rw [← hwidth] at hmode
  have hnarrow := hf.isNarrow hmode
  have hplaces := hf.placesQuads
    (isNarrow_of_acceptsHead hf hmode (hm.unextended hmode) (readFrame_acceptsHead hframe))
  have hoperand := exists_quad_operand hf hnarrow hplaces hholds
  have himplicit := exists_quad_implicit hnarrow hplaces (FlagEffects.readsFlags ⟨f.row.effects⟩)
    (FlagEffects.writesFlags ⟨f.row.effects⟩)
  have hname : i.mnemonic = .x86 f.mnemonic := by rw [hi]; rfl
  have hreads : i.implicitReads =
      implicitRegisters f f.row.implicitReads (FlagEffects.readsFlags ⟨f.row.effects⟩) := by
    rw [hi, hdetail]
    rfl
  have hwrites : i.implicitWrites =
      implicitRegisters f f.row.implicitWrites (FlagEffects.writesFlags ⟨f.row.effects⟩) := by
    rw [hi, hdetail]
    rfl
  constructor
  · rintro ⟨r, hr, hquad⟩
    rcases Instruction.mem_reported.mp hr with ⟨o, ho, hr⟩ | hr
    · obtain ⟨hm, hgeneral⟩ := hoperand.mp ⟨o, ho, r, hr, hquad⟩
      exact .inr ⟨_, hm, hname, hgeneral⟩
    · rw [hreads, hwrites] at hr
      exact .inl ⟨_, himplicit.mp ⟨r, hr, hquad⟩, hname⟩
  · rintro (⟨m, hm, hmnemonic⟩ | ⟨m, hm, hmnemonic, hgeneral⟩)
    · cases hname.symm.trans hmnemonic
      obtain ⟨r, hr, hquad⟩ := himplicit.mpr hm
      rw [← hreads, ← hwrites] at hr
      exact ⟨r, Instruction.mem_reported.mpr (.inr hr), hquad⟩
    · cases hname.symm.trans hmnemonic
      obtain ⟨o, ho, r, hr, hquad⟩ := hoperand.mpr ⟨hm, hgeneral⟩
      exact ⟨r, Instruction.mem_reported.mpr (.inl ⟨o, ho, hr⟩), hquad⟩

/-- `xlatb` with 32-bit addresses reads the table at `ebx`, and is reported to read `rbx`. -/
theorem decodeOne_reports_quad_xlatb :
    ∃ i, Engine.x86Of32.decodeOne [0xd7] 0 0x1000 = .ok (i, 1) ∧ i.mnemonic = .x86 .xlatb ∧
      .x86 (.qword 3) ∈ i.registersRead ∧ ∃ r, .x86 r ∈ i.reported ∧ r.isQuad = true := by
  have hread : (Engine.x86Of32.decodeOne [0xd7] 0 0x1000).map
      (fun d => ((d.1.mnemonic, d.1.registersRead), d.2)) =
        .ok ((.x86 .xlatb, [.x86 (.byte 0), .x86 (.qword 3)]), 1) := by
    decide +kernel
  obtain ⟨i, next, hrun, hshown⟩ := Engine.exists_of_map hread
  simp only [Prod.mk.injEq] at hshown
  obtain ⟨⟨hmnemonic, hregisters⟩, rfl⟩ := hshown
  refine ⟨i, hrun, hmnemonic, by simp [hregisters], ?_⟩
  exact (decodeOne_reports_quad rfl (by decide) rfl hrun).mpr
    (.inl ⟨.xlatb, by decide, hmnemonic⟩)

/-- `C4 E1 F9 6E C0` moves a 32-bit register outside 64-bit mode, where the W bit has no say, and is
given `rax` as an operand. -/
theorem exists_quad_vmovq :
    ¬∀ (bytes : List UInt8) (i : Instruction) (next : Nat),
      Engine.x86Of32.decodeOne bytes 0 0x1000 = .ok (i, next) →
        ∀ r, .x86 r ∈ i.reported → r.isQuad = false := by
  intro hnone
  have hread : (Engine.x86Of32.decodeOne [0xc4, 0xe1, 0xf9, 0x6e, 0xc0] 0 0x1000).map
      (fun d => (d.1.operands.map (·.kind), d.2)) =
        .ok ([.register (.x86 (.xmm 0)), .register (.x86 (.qword 0))], 5) := by
    decide +kernel
  obtain ⟨i, next, hrun, hshown⟩ := Engine.exists_of_map hread
  simp only [Prod.mk.injEq] at hshown
  obtain ⟨hkinds, -⟩ := hshown
  obtain ⟨o, ho, hkind⟩ : ∃ o ∈ i.operands, o.kind = .register (.x86 (.qword 0)) := by
    rw [← List.mem_map, hkinds]
    simp
  have hreported : .x86 (.qword 0) ∈ i.reported := by
    refine Instruction.mem_reported.mpr (.inl ⟨o, ho, List.mem_append_left _ ?_⟩)
    rw [hkind]
    exact List.mem_singleton_self _
  cases hnone _ i next hrun _ hreported

end X86

end MachineCode
