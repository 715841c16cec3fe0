import MachineCode.Proofs.X86.MemoryRefs

/-!
# Spelling an address

Every combination of base, index, scale and 32-bit displacement that addresses of
32 or 64 bits may have is spelled by some ModRM and SIB bytes. One uniform form
does it: a SIB byte always, and four bytes of displacement always. It avoids the
special cases that a shorter form has to mind. A base never meets mod 0, so
`rbp` and `r13` need no care; `rsp` and `r12` have the SIB byte that they ask for;
no index is index 4, and `r12` as index differs from it in its extension bit. Only
an address relative to the instruction pointer has no SIB byte.
-/

namespace MachineCode

namespace Bytes

/-- The low bytes of a number, least significant first. -/
def lowBytes : Nat → Nat → List UInt8
  | 0, _ => []
  | n + 1, v => UInt8.ofNat v :: lowBytes n (v / 256)

theorem length_lowBytes (n v : Nat) : (lowBytes n v).length = n := by
  induction n generalizing v with
  | zero => rfl
  | succ n ih => rw [lowBytes, List.length_cons, ih]

theorem littleEndian_lowBytes {n v : Nat} (hv : v < 256 ^ n) :
    littleEndian (lowBytes n v) = v := by
  induction n generalizing v with
  | zero => exact (Nat.lt_one_iff.mp hv).symm
  | succ n ih =>
      have hdiv : v / 256 < 256 ^ n := by
        rw [Nat.pow_succ, Nat.mul_comm] at hv
        exact Nat.div_lt_of_lt_mul hv
      rw [lowBytes, littleEndian, ih hdiv]
      exact Nat.mod_add_div v 256

/-- A number of 32 bits is read back from its four bytes. -/
theorem signed64_lowBytes {d : Int64} (hlo : -2 ^ 31 ≤ d.toInt) (hhi : d.toInt < 2 ^ 31) :
    signed64 (lowBytes 4 (BitVec.ofInt 32 d.toInt).toNat) = d := by
  have hlt : (BitVec.ofInt 32 d.toInt).toNat < 256 ^ 4 := (BitVec.ofInt 32 d.toInt).isLt
  rw [signed64, length_lowBytes, littleEndian_lowBytes hlt, signedValue]
  rw [BitVec.ofNat_toNat, BitVec.setWidth_eq, BitVec.toInt_ofInt,
    Int.bmod_eq_of_le (by omega) (by omega)]
  exact Int64.ofInt_toInt d

end Bytes

namespace X86

open Bytes Read

/-- How an address is written: a ModRM byte without its register field, a SIB byte, a displacement,
and the extension bits of index and base. -/
structure AddressForm where
  modrm : UInt8
  sib : Option UInt8
  disp : List UInt8
  x : Bool := false
  b : Bool := false
deriving DecidableEq

namespace AddressForm

def bytes (form : AddressForm) : List UInt8 :=
  form.sib.toList ++ form.disp

/-- The extension byte that sets the bits of a form, if there are any to set. -/
def rex (form : AddressForm) : UInt8 :=
  if form.x || form.b then 0x40 ||| (if form.x then 2 else 0) ||| (if form.b then 1 else 0) else 0

/-- A frame with the ModRM byte of a form, behind its extension byte. -/
def inFrame (form : AddressForm) (f : Frame) : Frame :=
  { f with
    head := { f.head with
      encoding := .legacy, prefixes := { f.head.prefixes with rex := form.rex } }
    modrm := some form.modrm }

/-- The SIB byte with a scale, an index and a base, of which it holds the low three bits. -/
def sibOf (scale : BitVec 2) (index base : BitVec 4) : UInt8 :=
  ⟨scale ++ (index.setWidth 3 ++ base.setWidth 3)⟩

/-- The number of a general register that may stand in an address. -/
def number? : MachineCode.Register → Option (BitVec 4)
  | .x86 (.word n) | .x86 (.dword n) | .x86 (.qword n) => some n
  | _ => none

def scaleField (scale : UInt8) : BitVec 2 :=
  if scale = 8 then 3 else if scale = 4 then 2 else if scale = 2 then 1 else 0

/-- The form that spells a reference. Index 4 is none, and mod 0 with base 5 is no base. -/
def of (m : MemoryRef) : AddressForm :=
  let disp := lowBytes 4 (BitVec.ofInt 32 m.disp.toInt).toNat
  if m.base = .x86 .eip ∨ m.base = .x86 .rip then { modrm := 0x05, sib := none, disp }
  else
    let index := (number? m.index).getD 4
    let base := (number? m.base).getD 5
    { modrm := if m.base = .absent then 0x04 else 0x84
      sib := some (sibOf (scaleField m.scale) index base)
      disp
      x := index.msb
      b := base.msb }

end AddressForm

/-- Whether a frame has the ModRM byte of a form, whatever the register field, with the extension
bits of the form in some encoding. -/
structure Frame.HasForm (f : Frame) (mode size : Width) (form : AddressForm) : Prop where
  mode_eq : f.head.mode = mode
  size_eq : f.addressSize = size
  mod_eq : f.modField = form.modrm >>> 6
  rm_eq : f.rmField = form.modrm &&& 7
  x_eq : f.head.extensionBit 2 f.head.fields.x = form.x
  b_eq : f.head.extensionBit 1 f.head.fields.b = form.b

variable {f : Frame} {m : MemoryRef} {mode size : Width} {disp : List UInt8} {u : Nat}
  {segment : MachineCode.Register}

theorem AddressForm.inFrame_hasForm (form : AddressForm) (hmode : f.head.mode = mode)
    (hsize : f.addressSize = size) : (form.inFrame f).HasForm mode size form where
  mode_eq := hmode
  size_eq := hsize
  mod_eq := rfl
  rm_eq := rfl
  x_eq := by
    show (form.rex &&& 2 != 0) = form.x
    rw [AddressForm.rex]
    cases form.x <;> cases form.b <;> rfl
  b_eq := by
    show (form.rex &&& 1 != 0) = form.b
    rw [AddressForm.rex]
    cases form.x <;> cases form.b <;> rfl

theorem sibOf_fields :
    ∀ (scale : BitVec 2) (index base : BitVec 4),
      let sib := AddressForm.sibOf scale index base
      let i := sib >>> 3 &&& 7 ||| if index.msb then 8 else 0
      let b := sib &&& 7 ||| if base.msb then 8 else 0
      sib >>> 6 = ⟨scale.setWidth 8⟩ ∧ i.toBitVec.setWidth 4 = index ∧ (i = 4 ↔ index = 4) ∧
        b.toBitVec.setWidth 4 = base ∧ (b &&& 7 = 5 ↔ base.setWidth 3 = (5 : BitVec 3)) := by
  decide +kernel

theorem shiftLeft_scaleField {scale : UInt8}
    (hscale : scale = 1 ∨ scale = 2 ∨ scale = 4 ∨ scale = 8) :
    (1 : UInt8) <<< (⟨(AddressForm.scaleField scale).setWidth 8⟩ : UInt8) = scale := by
  rcases hscale with rfl | rfl | rfl | rfl <;> decide

theorem msb_of_hasRegister {n : BitVec 4} (hn : HasRegister mode n) (hmsb : n.msb = true) :
    mode = .w64 := by
  have hlow : ∀ k : BitVec 4, k < 8 → k.msb = false := by decide
  rcases hn with hmode | hlt
  · exact hmode
  · rw [hlow n hlt] at hmsb
    cases hmsb

theorem readDisp_takes (hdisp : disp.length = 4) :
    (Address.readDisp 4).Takes u disp (signed64 disp) := by
  intro start more
  have htake : (disp ++ more).take 4 = disp := List.take_left' hdisp
  have hadvance := Tape.advance_append start u disp more
  rw [hdisp] at hadvance
  have hbytes : Read.bytes 4 ⟨start, u, disp ++ more⟩ = .ok disp ⟨start, u + 4, more⟩ := by
    simp only [Read.bytes, htake, hdisp, if_true, hadvance]
  rw [hdisp]
  exact map_ok hbytes

/-- With mod 2 there is a base, with mod 0 and base 5 there is none; both have four bytes of
displacement. -/
theorem readSib_takes (f : Frame) (segment : MachineCode.Register) (scale : BitVec 2)
    (index base : BitVec 4) {mod : UInt8} (hdisp : disp.length = 4)
    (hx : f.head.extensionBit 2 f.head.fields.x = index.msb)
    (hb : f.head.extensionBit 1 f.head.fields.b = base.msb)
    (hmod : mod = 2 ∨ (mod = 0 ∧ base.setWidth 3 = (5 : BitVec 3))) :
    (Address.readSib f segment mod).Takes u (AddressForm.sibOf scale index base :: disp)
      { memory := {
          segment
          base := if mod = 0 then .absent else .x86 (.ofWidth f.addressSize base)
          index := if index = 4 then .absent else .x86 (.ofWidth f.addressSize index)
          scale := if index = 4 then 1 else 1 <<< (⟨scale.setWidth 8⟩ : UInt8)
          disp := signed64 disp }
        shortDisp := false
        sib := some (AddressForm.sibOf scale index base) } := by
  obtain ⟨hscale, hindex, hnone, hbase, hfive⟩ := sibOf_fields scale index base
  have hxExt : f.head.xExt = if index.msb then 8 else 0 := by rw [Head.xExt, hx]
  have hbExt : f.head.bExt = if base.msb then 8 else 0 := by rw [Head.bExt, hb]
  rw [← hxExt] at hindex hnone
  rw [← hbExt] at hbase hfive
  have hnoBase : (mod = 0 ∧ (AddressForm.sibOf scale index base &&& 7 ||| f.head.bExt) &&& 7 = 5) ↔
      mod = 0 := by
    rw [hfive]
    rcases hmod with rfl | ⟨rfl, hbase⟩
    · exact ⟨fun h => h.1, fun h => absurd h (by decide)⟩
    · exact ⟨fun _ => rfl, fun _ => ⟨rfl, hbase⟩⟩
  have hsize : (if mod = 0 then 4 else Address.dispSize mod) = 4 := by
    rcases hmod with rfl | ⟨rfl, -⟩ <;> rfl
  have hbyte : Read.byte.Takes u [AddressForm.sibOf scale index base]
      (AddressForm.sibOf scale index base) := fun _ _ => rfl
  refine Takes.bind hbyte ?_
  -- with the fields in place of the bits, only the displacement is left to read
  simp only [hnoBase, hsize, hnone, hscale, ofX86_general, hindex, hbase]
  intro start more
  rw [bind_ok (readDisp_takes hdisp start more)]
  rfl

theorem readPlain_takes (f : Frame) (segment : MachineCode.Register) (hdisp : disp.length = 4)
    (hmode : f.head.mode = .w64) :
    (Address.readPlain f segment 0 5).Takes u disp
      { memory := { segment, base := .x86 (.instructionPointer f.addressSize.bits)
                    disp := signed64 disp }
        shortDisp := false } := by
  intro start more
  simp only [Address.readPlain, and_self, if_true, hmode, Width.isLong, decide_true,
    ofX86_instructionPointer]
  rw [bind_ok (readDisp_takes hdisp start more)]
  rfl

theorem read?_of_form {form : AddressForm} {mod rm : UInt8} (hf : f.HasForm mode size form)
    (hsize : size ≠ .w16) (hmod : form.modrm >>> 6 = mod) (hrm : form.modrm &&& 7 = rm)
    (hne : mod ≠ 3) :
    Address.read? f =
      if rm = 4 then some <$> Address.readSib f (.ofX86 f.head.prefixes.segment) mod
      else some <$> Address.readPlain f (.ofX86 f.head.prefixes.segment) mod rm := by
  have hmodField := hf.mod_eq.trans hmod
  have hrmField := hf.rm_eq.trans hrm
  cases hm : f.modrm with
  | none =>
      rw [Frame.modField, hm] at hmodField
      exact absurd hmodField.symm hne
  | some m =>
      rw [Frame.modField, hm] at hmodField
      rw [Frame.rmField, hm] at hrmField
      simp only [Option.elim] at hmodField hrmField
      simp only [Address.read?, hm, hmodField, hrmField, if_neg hne, hf.size_eq, if_neg hsize]

/-- What it means that a form spells a reference: a ModRM byte of the memory form, extension bits in
64-bit mode alone, which an extension byte sets in any frame; and reading it gives the reference and
takes its bytes and no others. -/
structure AddressForm.Spells (form : AddressForm) (mode size : Width) (m : MemoryRef) : Prop where
  mod_ne : form.modrm >>> 6 ≠ 3
  long_of_extended : form.x = true ∨ form.b = true → mode = .w64
  framed : ∀ f : Frame, f.head.mode = mode → f.addressSize = size →
    (form.inFrame f).HasForm mode size form
  takes : ∀ (f : Frame) (u : Nat), f.HasForm mode size form →
    (Address.read? f).Takes u form.bytes
      (some { memory := { m with segment := .ofX86 f.head.prefixes.segment }
              shortDisp := false, sib := form.sib })

/-- An index, if there is one, has a number that is not 4. -/
theorem Combines.index_number (hm : Combines mode size m) :
    let index := (AddressForm.number? m.index).getD 4
    HasRegister mode index ∧ m.index = (if index = 4 then .absent else .x86 (.ofWidth size index)) ∧
      m.scale = if index = 4 then 1
        else (1 : UInt8) <<< (⟨(AddressForm.scaleField m.scale).setWidth 8⟩ : UInt8) := by
  rcases hm.index with ⟨hindex, hscale⟩ | ⟨n, hn, hregister, hindex⟩
  · rw [hindex, hscale]
    exact ⟨.inr (by decide), rfl, rfl⟩
  · have hnumber : AddressForm.number? m.index = some n := by
      rw [hindex]
      cases size <;> rfl
    simp only [hnumber, Option.getD_some, if_neg hn]
    exact ⟨hregister, hindex, (shiftLeft_scaleField hm.scale).symm⟩

theorem signed64_disp (hdisp : FitsDisplacement m.disp) :
    signed64 (lowBytes 4 (BitVec.ofInt 32 m.disp.toInt).toNat) = m.disp :=
  signed64_lowBytes hdisp.1 hdisp.2

theorem spells_pointer (hsize : size ≠ .w16) (hm : Combines mode size m)
    (hdisp : FitsDisplacement m.disp) (hmode : mode = .w64) (hindex : m.index = .absent)
    (hbase : m.base = .x86 (.instructionPointer size.bits)) :
    (AddressForm.of m).Spells mode size m := by
  have hpointer : m.base = .x86 .eip ∨ m.base = .x86 .rip := by
    rw [hbase]
    cases size with
    | w16 => exact absurd rfl hsize
    | w32 => exact .inl rfl
    | w64 => exact .inr rfl
  have hscale : m.scale = 1 := by
    rcases hm.index with ⟨-, hscale⟩ | ⟨n, -, -, h⟩
    · exact hscale
    · rw [hindex] at h
      cases h
  rw [AddressForm.of, if_pos hpointer]
  refine ⟨show (0x05 : UInt8) >>> 6 ≠ 3 by decide, fun _ => hmode,
    fun _ => AddressForm.inFrame_hasForm _, fun f u hf start more => ?_⟩
  have hread := readPlain_takes (u := u) f (.ofX86 f.head.prefixes.segment)
    (length_lowBytes 4 (BitVec.ofInt 32 m.disp.toInt).toNat) (hf.mode_eq.trans hmode) start more
  rw [signed64_disp hdisp, hf.size_eq, ← hbase] at hread
  rw [read?_of_form hf hsize (show (0x05 : UInt8) >>> 6 = 0 from rfl)
    (show (0x05 : UInt8) &&& 7 = 5 from rfl) (by decide), if_neg (by decide), hindex, hscale]
  exact map_ok hread

theorem spells_sib {index base : BitVec 4} {modrm : UInt8} (mod : UInt8) (hsize : size ≠ .w16)
    (hdisp : FitsDisplacement m.disp) (hregisters : HasRegister mode index ∧ HasRegister mode base)
    (hindex : m.index = if index = 4 then .absent else .x86 (.ofWidth size index))
    (hscale : m.scale = if index = 4 then 1
      else (1 : UInt8) <<< (⟨(AddressForm.scaleField m.scale).setWidth 8⟩ : UInt8))
    (hbase : m.base = if mod = 0 then .absent else .x86 (.ofWidth size base))
    (hmodrm : modrm >>> 6 = mod ∧ modrm &&& 7 = 4)
    (hmod : mod = 2 ∨ (mod = 0 ∧ base.setWidth 3 = (5 : BitVec 3))) :
    AddressForm.Spells
      { modrm, sib := some (AddressForm.sibOf (AddressForm.scaleField m.scale) index base)
        disp := lowBytes 4 (BitVec.ofInt 32 m.disp.toInt).toNat, x := index.msb, b := base.msb }
      mode size m := by
  have hne : mod ≠ 3 := by
    rcases hmod with rfl | ⟨rfl, -⟩ <;> decide
  refine ⟨fun h => hne (hmodrm.1.symm.trans h), ?_, fun _ => AddressForm.inFrame_hasForm _,
    fun f u hf start more => ?_⟩
  · rintro (hmsb | hmsb)
    · exact msb_of_hasRegister hregisters.1 hmsb
    · exact msb_of_hasRegister hregisters.2 hmsb
  · have hread := readSib_takes (u := u) f (.ofX86 f.head.prefixes.segment)
      (AddressForm.scaleField m.scale) index base
      (length_lowBytes 4 (BitVec.ofInt 32 m.disp.toInt).toNat) hf.x_eq hf.b_eq hmod start more
    rw [signed64_disp hdisp, hf.size_eq, ← hbase, ← hindex, ← hscale] at hread
    rw [read?_of_form hf hsize hmodrm.1 hmodrm.2 hne, if_pos rfl]
    exact map_ok hread

/-- Every address of 32 or 64 bits is spelled by a ModRM byte, a SIB byte, extension bits and a
displacement: with any base and any index but the stack pointer, any scale of the index, and any
signed displacement of 32 bits. -/
theorem AddressForm.of_spells (hsize : size ≠ .w16) (hm : Combines mode size m)
    (hdisp : FitsDisplacement m.disp) : (AddressForm.of m).Spells mode size m := by
  obtain ⟨hregister, hindex, hscale⟩ := hm.index_number
  rcases hm.base with habsent | ⟨n, hn, hbase⟩ | ⟨hmode, habsent, hpointer⟩
  -- no base is mod 0 with base 5, and any other base is mod 2, even where mod 0 would do
  · have hnot : ¬(m.base = .x86 .eip ∨ m.base = .x86 .rip) := by simp [habsent]
    rw [AddressForm.of, if_neg hnot, habsent]
    exact spells_sib 0 hsize hdisp ⟨hregister, .inr (by decide)⟩ hindex hscale habsent
      ⟨rfl, rfl⟩ (.inr ⟨rfl, rfl⟩)
  · have hnot : ¬(m.base = .x86 .eip ∨ m.base = .x86 .rip) := by
      rw [hbase]
      cases size <;> simp [Register.ofWidth]
    have hpresent : m.base ≠ .absent := by simp [hbase]
    have hnumber : AddressForm.number? m.base = some n := by
      rw [hbase]
      cases size <;> rfl
    rw [AddressForm.of, if_neg hnot, if_neg hpresent, hnumber]
    exact spells_sib 2 hsize hdisp ⟨hregister, hn⟩ hindex hscale hbase ⟨rfl, rfl⟩ (.inl rfl)
  · exact spells_pointer hsize hm hdisp hmode habsent hpointer

/-- `lea rax, [r12 + r13 * 8 - 5]`, where both registers are special without their extension bits. -/
theorem AddressForm.of_spells_lea :
    let m : MemoryRef :=
      { base := .x86 (.qword 12), index := .x86 (.qword 13), scale := 8, disp := -5 }
    Combines .w64 .w64 m ∧ FitsDisplacement m.disp ∧
      ∃ f t, readFrame .w64 { rest := [0x4b, 0x8d, 0x84, 0xec, 0xfb, 0xff, 0xff, 0xff] } = .ok f t ∧
        f.HasForm .w64 .w64 (AddressForm.of m) ∧
        Address.read? f t =
          .ok (some { memory := m, shortDisp := false, sib := some 0xec }) ⟨0, 8, []⟩ := by
  intro m
  have hm : Combines .w64 .w64 m := ⟨by decide, .inr ⟨13, by decide, .inl rfl, rfl⟩,
    .inr (.inl ⟨12, .inl rfl, rfl⟩)⟩
  have hdisp : FitsDisplacement m.disp := ⟨by decide, by decide⟩
  have hof : AddressForm.of m = { modrm := 0x84, sib := some 0xec, disp := [0xfb, 0xff, 0xff, 0xff]
                                  x := true, b := true } := by
    decide +kernel
  have hread : EStateM.run' (do
        let f ← readFrame .w64
        let t ← get
        return decide (f.head.mode = .w64 ∧ f.addressSize = .w64 ∧ f.modField = 2 ∧ f.rmField = 4 ∧
          f.head.extensionBit 2 f.head.fields.x = true ∧
          f.head.extensionBit 1 f.head.fields.b = true ∧ f.head.prefixes.segment = .absent ∧
          t = ⟨0, 3, [0xec, 0xfb, 0xff, 0xff, 0xff]⟩))
      { rest := [0x4b, 0x8d, 0x84, 0xec, 0xfb, 0xff, 0xff, 0xff] } = some true := by
    decide +kernel
  obtain ⟨_, hrun⟩ := exists_of_run' hread
  obtain ⟨f, t, hframe, hrest⟩ := of_bind_ok hrun
  obtain ⟨_, _, hget, hpure⟩ := of_bind_ok hrest
  cases hget
  have hfields := of_decide_eq_true (EStateM.Result.ok.inj hpure).1
  obtain ⟨hmode, hsize, hmod, hrm, hx, hb, hsegment, rfl⟩ := hfields
  have hform : f.HasForm .w64 .w64 (AddressForm.of m) := by
    rw [hof]
    exact ⟨hmode, hsize, hmod, hrm, hx, hb⟩
  have htakes := (AddressForm.of_spells (by decide) hm hdisp).takes f 3 hform 0 []
  rw [hsegment, hof] at htakes
  exact ⟨hm, hdisp, f, _, hframe, hform, htakes⟩

end X86

end MachineCode
