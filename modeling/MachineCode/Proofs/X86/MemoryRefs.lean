import MachineCode.Proofs.Bytes.Endian
import MachineCode.Proofs.X86.Layout
import MachineCode.Proofs.X86.PrefixSummary
import MachineCode.Proofs.X86.Slots
import Mathlib.Algebra.Group.Int.Defs
import Mathlib.Algebra.Group.Nat.Defs

/-!
# Memory references

The ModRM and SIB bytes can spell only some combinations of base, index and
scale, and `Combines` says which: registers as wide as the address, a scale only
for an index, no stack pointer as index, the instruction pointer only in 64-bit
mode and only by itself. The three readers of addresses are looked at one by one.
What else makes a memory reference makes a simpler one, an offset without
registers or a single string register.

A displacement comes from four bytes at most, so it is a signed 32-bit number.
EVEX multiplies a displacement of one byte by at most 64, which stays far inside
this range; only an absolute offset may be as wide as the address.
-/

namespace MachineCode.X86

open Bytes Read

/-- The general register of a width with a number. -/
def Register.ofWidth : Width → BitVec 4 → Register
  | .w16 => .word
  | .w32 => .dword
  | .w64 => .qword

/-- Whether a mode has a general register with a number: the last eight need an extension bit. -/
def HasRegister (mode : Width) (n : BitVec 4) : Prop :=
  mode = .w64 ∨ n < 8

/-- The combinations of base, index and scale that an address of some size has in a mode. -/
structure Combines (mode size : Width) (m : MemoryRef) : Prop where
  scale : m.scale = 1 ∨ m.scale = 2 ∨ m.scale = 4 ∨ m.scale = 8
  index : (m.index = .absent ∧ m.scale = 1) ∨
    ∃ n, n ≠ 4 ∧ HasRegister mode n ∧ m.index = .x86 (.ofWidth size n)
  base : m.base = .absent ∨
    (∃ n, HasRegister mode n ∧ m.base = .x86 (.ofWidth size n)) ∨
    (mode = .w64 ∧ m.index = .absent ∧ m.base = .x86 (.instructionPointer size.bits))

variable {f : Frame} {h : Head} {m : MemoryRef} {mode size : Width} {r : Register} {t t' : Tape}

theorem Register.size_ofWidth (w : Width) (n : BitVec 4) : (ofWidth w n).size = w.bits := by
  cases w <;> rfl

theorem ofX86_general (number : UInt8) (w : Width) (extended : Bool) :
    MachineCode.Register.ofX86 (.general number w.bits extended) =
      .x86 (.ofWidth w (number.toBitVec.setWidth 4)) := by
  cases w <;> rfl

theorem ofX86_instructionPointer (bits : UInt16) :
    MachineCode.Register.ofX86 (.instructionPointer bits) = .x86 (.instructionPointer bits) := by
  refine if_neg ?_
  rw [Register.instructionPointer]
  repeat' split
  all_goals exact Register.noConfusion

theorem Combines.size_base (hm : Combines mode size m) (hbase : m.base = .x86 r) :
    r.size = size.bits := by
  rcases hm.base with h | ⟨n, -, h⟩ | ⟨-, -, h⟩ <;> rw [h] at hbase <;> cases hbase
  · exact Register.size_ofWidth size n
  · cases size <;> rfl

theorem Combines.size_index (hm : Combines mode size m) (hindex : m.index = .x86 r) :
    r.size = size.bits := by
  rcases hm.index with ⟨h, -⟩ | ⟨n, -, -, h⟩ <;> rw [h] at hindex <;> cases hindex
  exact Register.size_ofWidth size n

theorem Combines.index_ne_stackPointer (hm : Combines mode size m) :
    ∀ w, m.index ≠ .x86 (.ofWidth w 4) := by
  rcases hm.index with ⟨h, -⟩ | ⟨n, hn, -, h⟩
  · rw [h]
    exact fun w => MachineCode.Register.noConfusion
  · intro w hw
    rw [h] at hw
    cases size <;> cases w <;> cases hw <;> exact hn rfl

/-- A field of three bits with an extension bit in front is a number of four bits. -/
theorem toNat_number (b : UInt8) {ext : UInt8} (hext : ext = 0 ∨ ext = 8) :
    ((b &&& 7 ||| ext).toBitVec.setWidth 4).toNat = (b &&& 7 ||| ext).toNat := by
  have hlow : (b &&& 7).toNat < 2 ^ 4 := by
    rw [UInt8.toNat_and]
    exact Nat.lt_of_le_of_lt Nat.and_le_right (by decide)
  have hhigh : ext.toNat < 2 ^ 4 := by
    rcases hext with rfl | rfl <;> decide
  rw [BitVec.toNat_setWidth]
  refine Nat.mod_eq_of_lt ?_
  show (b &&& 7 ||| ext).toNat < 2 ^ 4
  rw [UInt8.toNat_or]
  exact Nat.or_lt_two_pow hlow hhigh

theorem number_ne_four {b ext : UInt8} (hext : ext = 0 ∨ ext = 8) (hne : b &&& 7 ||| ext ≠ 4) :
    (b &&& 7 ||| ext).toBitVec.setWidth 4 ≠ (4 : BitVec 4) := by
  intro hfour
  refine hne (UInt8.toNat_inj.mp ?_)
  rw [← toNat_number b hext, hfour]
  rfl

theorem hasRegister_number (b : UInt8) {ext : UInt8} (hext : mode ≠ .w64 → ext = 0) :
    HasRegister mode ((b &&& 7 ||| ext).toBitVec.setWidth 4) := by
  by_cases hmode : mode = .w64
  · exact .inl hmode
  · right
    rw [hext hmode, BitVec.lt_def, toNat_number b (.inl rfl), UInt8.or_zero, UInt8.toNat_and]
    exact Nat.lt_of_le_of_lt Nat.and_le_right (by decide)

theorem Head.xExt_cases (h : Head) : h.xExt = 0 ∨ h.xExt = 8 := by
  rw [xExt]
  split
  · exact .inr rfl
  · exact .inl rfl

theorem Combines.of_base {segment base : MachineCode.Register} {disp : Int64}
    (hbase : base = .absent ∨ (∃ n, HasRegister mode n ∧ base = .x86 (.ofWidth size n)) ∨
      (mode = .w64 ∧ base = .x86 (.instructionPointer size.bits))) :
    Combines mode size { segment, base, disp } where
  scale := .inl rfl
  index := .inl ⟨rfl, rfl⟩
  base := by
    rcases hbase with h | h | ⟨hmode, h⟩
    · exact .inl h
    · exact .inr (.inl h)
    · exact .inr (.inr ⟨hmode, rfl, h⟩)

theorem combines_pair16 (mode : Width) (rm : UInt8) (segment : MachineCode.Register)
    (disp : Int64) :
    Combines mode .w16 { segment, base := .ofX86 (Address.pair16 rm).1
                         index := .ofX86 (Address.pair16 rm).2, disp } := by
  have hword (n : BitVec 4) (hn : n < 8) :
      ∃ k, HasRegister mode k ∧
        MachineCode.Register.x86 (.word n) = .x86 (.ofWidth .w16 k) := ⟨n, .inr hn, rfl⟩
  have hindex (n : BitVec 4) (hn : n < 8) (hfour : n ≠ 4) :
      ∃ k, k ≠ 4 ∧ HasRegister mode k ∧
        MachineCode.Register.x86 (.word n) = .x86 (.ofWidth .w16 k) := ⟨n, hfour, .inr hn, rfl⟩
  rw [Address.pair16]
  generalize rm.toNat = k
  -- four pairs, four single registers, and no register for a field that does not exist
  match k with
  | 0 => exact ⟨.inl rfl, .inr (hindex 6 (by decide) (by decide)), .inr (.inl (hword 3 (by decide)))⟩
  | 1 => exact ⟨.inl rfl, .inr (hindex 7 (by decide) (by decide)), .inr (.inl (hword 3 (by decide)))⟩
  | 2 => exact ⟨.inl rfl, .inr (hindex 6 (by decide) (by decide)), .inr (.inl (hword 5 (by decide)))⟩
  | 3 => exact ⟨.inl rfl, .inr (hindex 7 (by decide) (by decide)), .inr (.inl (hword 5 (by decide)))⟩
  | 4 => exact .of_base (.inr (.inl (hword 6 (by decide))))
  | 5 => exact .of_base (.inr (.inl (hword 7 (by decide))))
  | 6 => exact .of_base (.inr (.inl (hword 5 (by decide))))
  | 7 => exact .of_base (.inr (.inl (hword 3 (by decide))))
  | _ + 8 => exact .of_base (.inl rfl)

theorem read16_gives (mode : Width) (segment : MachineCode.Register) (mod rm : UInt8) :
    (Address.read16 segment mod rm).Gives fun x =>
      Combines mode .w16 x.memory ∧ x.memory.segment = segment := by
  by_cases hdirect : mod = 0 ∧ rm = 6
  · simp only [Address.read16, if_pos hdirect]
    exact .after fun disp => .pure ⟨.of_base (.inl rfl), rfl⟩
  · simp only [Address.read16, if_neg hdirect]
    exact .after fun disp => .pure ⟨combines_pair16 mode rm segment disp, rfl⟩

theorem readSib_gives (hs : f.head.Sound) (segment : MachineCode.Register) (mod : UInt8) :
    (Address.readSib f segment mod).Gives fun x =>
      Combines f.head.mode f.addressSize x.memory ∧ x.memory.segment = segment := by
  refine .after fun sib => .after fun disp => .pure ⟨⟨?_, ?_, ?_⟩, rfl⟩
  · dsimp only
    split
    · exact .inl rfl
    · rcases shiftRight_six_cases sib with h | h | h | h <;> rw [h] <;> decide
  · dsimp only
    split
    · exact .inl ⟨rfl, rfl⟩
    · next hindex =>
        refine .inr ⟨_, number_ne_four f.head.xExt_cases hindex,
          hasRegister_number _ fun hmode => (hs.unextended hmode).1, ?_⟩
        exact ofX86_general _ _ _
  · dsimp only
    split
    · exact .inl rfl
    · refine .inr (.inl ⟨_, hasRegister_number sib fun hmode => (hs.unextended hmode).2, ?_⟩)
      exact ofX86_general _ _ _

theorem readPlain_gives (hs : f.head.Sound) (segment : MachineCode.Register) (mod m : UInt8) :
    (Address.readPlain f segment mod (m &&& 7)).Gives fun x =>
      Combines f.head.mode f.addressSize x.memory ∧ x.memory.segment = segment := by
  refine .after fun disp => .pure ⟨.of_base ?_, rfl⟩
  split
  · split
    · next hlong =>
        refine .inr (.inr ⟨of_decide_eq_true hlong, ?_⟩)
        exact ofX86_instructionPointer _
    · exact .inl rfl
  · refine .inr (.inl ⟨_, hasRegister_number m fun hmode => (hs.unextended hmode).2, ?_⟩)
    exact ofX86_general _ _ _

theorem read?_gives (hs : f.head.Sound) :
    (Address.read? f).Gives fun a => ∀ x, a = some x →
      Combines f.head.mode f.addressSize x.memory ∧
        x.memory.segment = .ofX86 f.head.prefixes.segment := by
  have hsome {P : Address → Prop} (x : Address) (hx : P x) : ∀ y, some x = some y → P y := by
    rintro _ ⟨⟩
    exact hx
  cases hm : f.modrm with
  | none =>
      simp only [Address.read?, hm]
      exact .pure fun x hx => by cases hx
  | some m =>
      simp only [Address.read?, hm]
      split
      · exact .pure fun x hx => by cases hx
      · split
        · next hsize =>
            rw [hsize]
            exact .map (read16_gives _ _ _ _) hsome
        · split
          · exact .map (readSib_gives hs _ _) hsome
          · exact .map (readPlain_gives hs _ _ _) hsome

/-- Whether a number fits into 32 bits with a sign. -/
def FitsDisplacement (d : Int64) : Prop :=
  -2 ^ 31 ≤ d.toInt ∧ d.toInt < 2 ^ 31

theorem toInt_signed64_range {bs : List UInt8} (hlen : bs.length ≤ 4) :
    -2 ^ (8 * bs.length) ≤ 2 * (signed64 bs).toInt ∧
      2 * (signed64 bs).toInt < 2 ^ (8 * bs.length) := by
  rw [toInt_signed64 (Nat.le_trans hlen (by decide))]
  exact signedValue_range _ _

theorem fits_signed64 {bs : List UInt8} (hlen : bs.length ≤ 4) :
    FitsDisplacement (signed64 bs) := by
  obtain ⟨hlo, hhi⟩ := toInt_signed64_range hlen
  have hpow : (2 : Int) ^ (8 * bs.length) ≤ 2 ^ 32 := by
    exact_mod_cast Nat.pow_le_pow_right (by decide) (show 8 * bs.length ≤ 32 by omega)
  constructor <;> omega

/-- A displacement of one byte times a few bytes is the product of the two. -/
theorem toInt_scaled {d : Int64} {factor : Nat} (hlo : -128 ≤ d.toInt) (hhi : d.toInt < 128)
    (hfactor : factor ≤ 64) : (d * Int64.ofNat factor).toInt = d.toInt * factor ∧
      -2 ^ 13 ≤ d.toInt * factor ∧ d.toInt * factor ≤ 2 ^ 13 := by
  have hnat : (Int64.ofNat factor).toInt = factor := Int64.toInt_ofNat_of_lt (by omega)
  have hleft : -128 * (factor : Int) ≤ d.toInt * factor :=
    Int.mul_le_mul_of_nonneg_right hlo (by omega)
  have hright : d.toInt * factor ≤ 128 * (factor : Int) :=
    Int.mul_le_mul_of_nonneg_right (by omega) (by omega)
  refine ⟨?_, by omega, by omega⟩
  rw [Int64.toInt_mul, hnat]
  exact Int.bmod_eq_of_le (by omega) (by omega)

theorem fits_scaled {d : Int64} {factor : Nat} (hlo : -128 ≤ d.toInt) (hhi : d.toInt < 128)
    (hfactor : factor ≤ 64) : FitsDisplacement (d * Int64.ofNat factor) := by
  obtain ⟨hvalue, hleft, hright⟩ := toInt_scaled hlo hhi hfactor
  rw [FitsDisplacement, hvalue]
  constructor <;> omega

/-- No operand is larger than the widest vector. -/
theorem Size.bits_le (f : Frame) (s : Size) : (s.bits f).toNat ≤ 512 := by
  cases s <;> simp only [Size.bits] <;> try decide
  case v => cases f.operandSize <;> decide
  case far => cases f.operandSize <;> decide
  case z | y | native | descriptor => split <;> decide
  case vec | vecHalf | vecQuarter | vecEighth => cases f.vectorLength <;> decide

/-- What an address that was read for a frame is like. -/
structure Address.Fits (f : Frame) (x : Address) : Prop where
  combines : Combines f.head.mode f.addressSize x.memory
  segment_eq : x.memory.segment = .ofX86 f.head.prefixes.segment
  disp : FitsDisplacement x.memory.disp
  short : x.shortDisp = true → -128 ≤ x.memory.disp.toInt ∧ x.memory.disp.toInt < 128

theorem readAddress_fits {x : Address} (hs : f.head.Sound)
    (hrun : readAddress f t = .ok (some x) t') : x.Fits f := by
  rw [readAddress] at hrun
  split at hrun
  · cases hrun
  have hmod : f.modField ≠ 3 := by
    intro hmod
    rw [read?_of_register hmod] at hrun
    cases hrun
  obtain ⟨_, sib, disp, ⟨⟩, -, hspelled, -, hlen⟩ := read?_took hmod hrun
  obtain ⟨hcombines, hsegment⟩ := read?_gives hs t _ t' hrun x rfl
  have hle : disp.length ≤ 4 := hlen ▸ displacementLength_le _ _ _ _
  refine ⟨hcombines, hsegment, ?_, ?_⟩
  · rw [hspelled.disp_eq]
    exact fits_signed64 hle
  · intro hshort
    rw [hspelled.short_eq, decide_eq_true_eq] at hshort
    obtain ⟨hlo, hhi⟩ := toInt_signed64_range hle
    rw [hshort] at hlo hhi
    rw [hspelled.disp_eq]
    constructor <;> omega

/-- Whether a reference is the absolute offset of a row that has one, and no ModRM byte. -/
structure Frame.IsOffset (f : Frame) (m : MemoryRef) : Prop where
  source : f.row.hasSource .offset = true
  modrm_eq : f.modrm = none
  base_eq : m.base = .absent
  index_eq : m.index = .absent

/-- What a memory operand of an instruction with some frame refers to. -/
structure Frame.Refers (f : Frame) (m : MemoryRef) : Prop where
  combines : Combines f.head.mode f.addressSize m
  width : ∀ r, m.base = .x86 r ∨ m.index = .x86 r → r.size = f.addressSize.bits
  /-- The index is neither `sp` nor `esp` nor `rsp`. -/
  index_ne : ∀ w, m.index ≠ .x86 (.ofWidth w 4)
  segment : m.segment = .absent ∨ ∃ n, m.segment = .x86 (.segment n)
  disp : FitsDisplacement m.disp ∨ f.IsOffset m

theorem Frame.Refers.of_combines (hm : Combines f.head.mode f.addressSize m)
    (hsegment : m.segment = .absent ∨ ∃ n, m.segment = .x86 (.segment n))
    (hdisp : FitsDisplacement m.disp ∨ f.IsOffset m) : f.Refers m where
  combines := hm
  width _ hr := hr.elim hm.size_base hm.size_index
  index_ne := hm.index_ne_stackPointer
  segment := hsegment
  disp := hdisp

theorem ofX86_segment (hr : r = .absent ∨ ∃ n, r = .segment n) :
    MachineCode.Register.ofX86 r = .absent ∨
      ∃ n, MachineCode.Register.ofX86 r = .x86 (.segment n) := by
  rcases hr with rfl | ⟨n, rfl⟩
  · exact .inl rfl
  · exact .inr ⟨n, rfl⟩

theorem Slot.Makes.refers {a : Option Address} {slot : Slot} {bits : UInt16} (hf : f.Chosen)
    (hs : f.head.Sound) (ha : ∀ x, a = some x → x.Fits f) (hslot : slot ∈ f.row.slots)
    (hmade : slot.Makes f a (.memory m) bits) : f.Refers m := by
  cases hmade with
  -- EVEX scales only a displacement of one byte, and by the size of the operand at most
  | address x size factor hx hsize hfactor =>
      have hx := ha x hx
      have hcombines := hx.combines
      refine .of_combines ⟨hcombines.scale, hcombines.index, hcombines.base⟩ ?_ (.inl ?_)
      · rw [hx.segment_eq]
        exact ofX86_segment hs.segment
      · rcases hfactor with rfl | ⟨hshort, rfl⟩
        · rw [show Int64.ofNat 1 = 1 from rfl, Int64.mul_one]
          exact hx.disp
        · obtain ⟨hlo, hhi⟩ := hx.short hshort
          have hle := slot.size.bits_le f
          refine fits_scaled hlo hhi ?_
          rcases hsize with rfl | rfl | rfl
          · omega
          · decide
          · decide
  -- an offset is read without a ModRM byte, and may be as wide as the address
  | offset value hsource =>
      have hoffset : f.row.hasSource .offset = true :=
        List.any_eq_true.mpr ⟨slot, hslot, decide_eq_true hsource⟩
      have hmodrm : f.modrm = none := by
        rw [← Option.isNone_iff_eq_none, ← Option.not_isSome, hf.modrm_isSome,
          (hf.regular.offset hoffset).1]
        rfl
      refine .of_combines (.of_base (.inl rfl)) (ofX86_segment hs.segment) (.inr ?_)
      exact ⟨hoffset, hmodrm, rfl, rfl⟩
  | string segment number hsegment hnumber =>
      have hzero : FitsDisplacement 0 := ⟨by decide, by decide⟩
      refine .of_combines (.of_base (.inr (.inl ?_))) (ofX86_segment ?_) (.inl hzero)
      · refine ⟨_, .inr ?_, ofX86_general number _ _⟩
        rcases hnumber with rfl | rfl <;> decide
      · rcases hsegment with rfl | rfl
        · exact hs.segment
        · exact .inr ⟨0, rfl⟩

theorem kind_of_memory? {o : Operand} (ho : o.memory? = some m) : o.kind = .memory m := by
  rw [Operand.memory?] at ho
  split at ho
  · next hkind =>
      cases ho
      exact hkind
  · cases ho

theorem readFrame_madeOf (hrun : readFrame mode t = .ok f t') :
    f.head.mode = mode ∧ (∃ run, f.head.MadeOf run) ∧ f.Chosen := by
  obtain ⟨hmode, hchosen⟩ := readFrame_chosen hrun
  obtain ⟨t₁, t₂, hhead, -, -⟩ := of_readFrame hrun
  exact ⟨hmode, readHead_madeOf hhead, hchosen⟩

theorem readFrame_head (hrun : readFrame mode t = .ok f t') :
    f.head.mode = mode ∧ f.head.Sound ∧ f.Chosen := by
  obtain ⟨hmode, ⟨run, hm⟩, hchosen⟩ := readFrame_madeOf hrun
  exact ⟨hmode, hm.sound, hchosen⟩

/-- Every memory operand of a decoded instruction is well formed. Its registers are as wide as the
address size that the record gives, in a combination that an address may have; its segment is one of
the six; its displacement is a signed 32-bit number, unless it is an absolute offset. -/
theorem decodeOne_memory_refers {e : Engine} {bytes : List UInt8} {offset next : Nat}
    {address : UInt64} {i : Instruction} (he : e.architecture = .x86)
    (h : e.decodeOne bytes offset address = .ok (i, next)) :
    ∃ f, (∃ t, readFrame e.mode.width { rest := i.bytes } = .ok f t) ∧
      f.head.mode = e.mode.width ∧
      (∀ d, i.detail = .x86 d → f.addressSize.bits.toNat = 8 * d.addressSize.toNat) ∧
      ∀ o ∈ i.operands, ∀ m, o.kind = .memory m → f.Refers m := by
  obtain ⟨f, a, ⟨t, hframe⟩, ⟨t₁, t₂, haddress⟩, hdetail, hmade⟩ := made_of_decodeOne he h
  obtain ⟨hmode, hs, hf⟩ := readFrame_head hframe
  refine ⟨f, ⟨t, hframe⟩, hmode, ?_, ?_⟩
  · intro d hd
    rw [hdetail d hd]
    cases f.addressSize <;> rfl
  · intro o ho m hm
    obtain ⟨slot, hslot, hslotMakes⟩ := hmade o ho
    rw [hm] at hslotMakes
    refine hslotMakes.refers hf hs ?_ hslot
    rintro x rfl
    exact readAddress_fits hs haddress

/-- `vaddps zmm1, zmm2, [eax + r12d * 4 + 0x1fc0]`: the displacement byte `7F` counts accesses of 64
bytes. -/
theorem decodeOne_memory_refers_vaddps :
    ∃ (i : Instruction) (f : Frame) (m : MemoryRef),
      Engine.x86Of64.decodeOne [0x67, 0x62, 0xb1, 0x6c, 0x48, 0x58, 0x4c, 0xa0, 0x7f] 0 0x1000 =
        .ok (i, 9) ∧
      i.operands.findSome? Operand.memory? = some m ∧
      m = { base := .x86 (.dword 0), index := .x86 (.dword 12), scale := 4, disp := 0x1fc0 } ∧
      f.Refers m := by
  have hread : (Engine.x86Of64.decodeOne [0x67, 0x62, 0xb1, 0x6c, 0x48, 0x58, 0x4c, 0xa0, 0x7f] 0
      0x1000).map (fun r => (r.1.operands.findSome? Operand.memory?, r.2)) =
        .ok (some { base := .x86 (.dword 0), index := .x86 (.dword 12), scale := 4
                    disp := 0x1fc0 }, 9) := by
    decide +kernel
  obtain ⟨i, next, hrun, hshown⟩ := Engine.exists_of_map hread
  simp only [Prod.mk.injEq] at hshown
  obtain ⟨hmemory, rfl⟩ := hshown
  obtain ⟨f, -, -, -, hrefers⟩ := decodeOne_memory_refers rfl hrun
  obtain ⟨o, ho, hkind⟩ := List.exists_of_findSome?_eq_some hmemory
  refine ⟨i, f, _, hrun, hmemory, rfl, hrefers o ho _ ?_⟩
  exact kind_of_memory? hkind

end MachineCode.X86
