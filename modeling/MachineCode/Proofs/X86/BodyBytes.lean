import MachineCode.Proofs.Taken
import MachineCode.X86.Decode

/-!
# The bytes of a body

Behind the ModRM byte stand a SIB byte and a displacement, if the byte asks for
them, and then the fields of the operand slots. How long a displacement is
follows from the address size and from the fields of the ModRM and SIB bytes; how
long a field is, from its slot. What a slot yields is a function of its own field
and, if it takes the address, of the displacement: no slot sees the bytes of
another one.
-/

namespace MachineCode.X86

open Bytes Read

variable {f : Frame} {t t' : Tape}

/-- The number of displacement bytes of an address. -/
def displacementLength (addressSize : Width) (mod rm base : UInt8) : Nat :=
  if mod = 0 then
    if addressSize = .w16 then if rm = 6 then 2 else 0
    else if rm = 5 ∨ (rm = 4 ∧ base = 5) then 4 else 0
  else if mod = 1 then 1
  else if mod = 2 then if addressSize = .w16 then 2 else 4
  else 0

theorem displacementLength_le (addressSize : Width) (mod rm base : UInt8) :
    displacementLength addressSize mod rm base ≤ 4 := by
  rw [displacementLength]
  repeat' split
  all_goals decide

namespace Frame

/-- The mode field of the ModRM byte; without that byte, the one of the register form. -/
def modField (f : Frame) : UInt8 :=
  f.modrm.elim 3 fun (m : UInt8) => m >>> 6

/-- Whether the r/m field stands for an address: the ModRM byte has the memory form, and the row
does not take a register whatever the form. -/
def hasAddress (f : Frame) : Bool :=
  !f.row.hasSource .rmAnyForm && f.modField != 3

/-- Whether a SIB byte follows the ModRM byte. -/
def hasSib (f : Frame) : Bool :=
  f.hasAddress && f.rmField == 4 && decide (f.addressSize ≠ .w16)

/-- The number of displacement bytes behind the ModRM and SIB bytes. -/
def dispLength (f : Frame) (sib : Option UInt8) : Nat :=
  if f.hasAddress then
    displacementLength f.addressSize f.modField f.rmField (sib.elim 0 (· &&& 7))
  else 0

end Frame

/-- An address that was read from a SIB byte and a displacement. -/
structure Address.Spelled (a : Address) (sib : Option UInt8) (disp : List UInt8) : Prop where
  sib_eq : a.sib = sib
  disp_eq : a.memory.disp = signed64 disp
  short_eq : a.shortDisp = decide (disp.length = 1)

/-- How the address of a frame is spelled, if it has one. -/
structure Frame.SpellsAddress (f : Frame) (a : Option Address) (sib : Option UInt8)
    (disp : List UInt8) : Prop where
  isSome_eq : a.isSome = f.hasAddress
  spelled : ∀ x, a = some x → x.Spelled sib disp
  sib_isSome : sib.isSome = f.hasSib
  disp_length : disp.length = f.dispLength sib

theorem Frame.SpellsAddress.none (hf : f.hasAddress = false) :
    f.SpellsAddress none none [] where
  isSome_eq := hf.symm
  spelled _ hx := by cases hx
  sib_isSome := by rw [hasSib, hf]; rfl
  disp_length := by rw [dispLength, hf]; rfl

theorem Frame.SpellsAddress.bind_sib {a : Option Address} {sib : Option UInt8}
    {disp : List UInt8} (hs : f.SpellsAddress a sib disp) : a.bind (·.sib) = sib := by
  cases a with
  | some x => exact (hs.spelled x rfl).sib_eq
  | none =>
      have hsib := hs.sib_isSome
      rw [hasSib, ← hs.isSome_eq] at hsib
      cases sib with
      | none => rfl
      | some b => cases hsib

theorem shiftRight_six_cases (m : UInt8) :
    m >>> 6 = 0 ∨ m >>> 6 = 1 ∨ m >>> 6 = 2 ∨ m >>> 6 = 3 := by
  have hval : (m >>> 6).toNat = m.toNat / 64 := by
    rw [UInt8.toNat_shiftRight]
    simp [Nat.shiftRight_eq_div_pow]
  have hlt := m.toNat_lt
  simp only [← UInt8.toNat_inj, hval, UInt8.reduceToNat]
  omega

/-- The extension bit does not touch the three bits that decide about the base. -/
theorem base_and_seven (h : Head) (sib : UInt8) :
    (sib &&& 7 ||| h.bExt) &&& 7 = sib &&& 7 := by
  have hext : h.bExt.toNat &&& 7 = 0 := by
    rw [Head.bExt]
    split <;> rfl
  rw [← UInt8.toNat_inj]
  simp only [UInt8.toNat_and, UInt8.toNat_or, UInt8.reduceToNat]
  rw [Nat.and_or_distrib_right, hext, Nat.or_zero, Nat.and_assoc, Nat.and_self]

theorem readDisp_took {n : Nat} {value : Int64} (hrun : Address.readDisp n t = .ok value t') :
    ∃ disp, t.Took t' disp ∧ disp.length = n ∧ value = signed64 disp := by
  rw [Address.readDisp] at hrun
  split at hrun
  · next hzero =>
      cases hrun
      exact ⟨[], .refl t, hzero.symm, by decide⟩
  · exact signed_took hrun

section Readers

variable {segment : MachineCode.Register} {mod rm : UInt8} {a : Address}

theorem read16_took (hmod : mod = 0 ∨ mod = 1 ∨ mod = 2)
    (hrun : Address.read16 segment mod rm t = .ok a t') :
    ∃ disp, t.Took t' disp ∧ a.Spelled none disp ∧
      disp.length = displacementLength .w16 mod rm 0 := by
  obtain ⟨value, t₁, hdisp, hpure⟩ := of_bind_ok hrun
  cases hpure
  obtain ⟨disp, htook, hlen, rfl⟩ := readDisp_took hdisp
  refine ⟨disp, htook, ⟨rfl, rfl, by rw [hlen]⟩, ?_⟩
  rw [hlen]
  rcases hmod with rfl | rfl | rfl <;> simp [displacementLength]

theorem readSib_took (hmod : mod = 0 ∨ mod = 1 ∨ mod = 2) (hsize : f.addressSize ≠ .w16)
    (hrun : Address.readSib f segment mod t = .ok a t') :
    ∃ sib disp, t.Took t' (sib :: disp) ∧ a.Spelled (some sib) disp ∧
      disp.length = displacementLength f.addressSize mod 4 (sib &&& 7) := by
  obtain ⟨sib, t₁, hsib, hrest⟩ := of_bind_ok hrun
  obtain ⟨value, t₂, hdisp, hpure⟩ := of_bind_ok hrest
  cases hpure
  obtain ⟨disp, htook, hlen, rfl⟩ := readDisp_took hdisp
  refine ⟨sib, disp, (byte_took hsib).trans htook, ⟨rfl, rfl, by rw [hlen]⟩, ?_⟩
  rw [hlen, base_and_seven]
  rcases hmod with rfl | rfl | rfl <;> simp [displacementLength, Address.dispSize, hsize]

theorem readPlain_took (hmod : mod = 0 ∨ mod = 1 ∨ mod = 2) (hsize : f.addressSize ≠ .w16)
    (hrm : rm ≠ 4) (hrun : Address.readPlain f segment mod rm t = .ok a t') :
    ∃ disp, t.Took t' disp ∧ a.Spelled none disp ∧
      disp.length = displacementLength f.addressSize mod rm 0 := by
  obtain ⟨value, t₁, hdisp, hpure⟩ := of_bind_ok hrun
  cases hpure
  obtain ⟨disp, htook, hlen, rfl⟩ := readDisp_took hdisp
  refine ⟨disp, htook, ⟨rfl, rfl, by rw [hlen]⟩, ?_⟩
  rw [hlen]
  rcases hmod with rfl | rfl | rfl <;> simp [displacementLength, Address.dispSize, hsize, hrm]

end Readers

theorem Frame.modField_cases (hf : f.modField ≠ 3) :
    f.modField = 0 ∨ f.modField = 1 ∨ f.modField = 2 := by
  cases hm : f.modrm with
  | none => exact absurd (by rw [modField, hm]; rfl) hf
  | some m =>
      have hmod : f.modField = m >>> 6 := by rw [modField, hm]; rfl
      rw [hmod] at hf ⊢
      rcases shiftRight_six_cases m with h | h | h | h
      · exact .inl h
      · exact .inr (.inl h)
      · exact .inr (.inr h)
      · exact absurd h hf

theorem read?_of_register (hf : f.modField = 3) : Address.read? f = pure none := by
  cases hm : f.modrm with
  | none => simp only [Address.read?, hm]
  | some m =>
      rw [Frame.modField, hm] at hf
      simp only [Address.read?, hm]
      exact if_pos hf

/-- The address of a memory form: its SIB byte, if one is asked for, and its displacement. -/
theorem read?_took {a : Option Address} (hf : f.modField ≠ 3)
    (hrun : Address.read? f t = .ok a t') :
    ∃ x sib disp, a = some x ∧ t.Took t' (sib.toList ++ disp) ∧ x.Spelled sib disp ∧
      sib.isSome = (f.rmField == 4 && decide (f.addressSize ≠ .w16)) ∧
      disp.length =
        displacementLength f.addressSize f.modField f.rmField (sib.elim 0 (· &&& 7)) := by
  have hmod := f.modField_cases hf
  cases hm : f.modrm with
  | none => exact absurd (by rw [Frame.modField, hm]; rfl) hf
  | some m =>
      have hmodField : m >>> 6 = f.modField := by rw [Frame.modField, hm]; rfl
      have hrmField : m &&& 7 = f.rmField := by rw [Frame.rmField, hm]; rfl
      simp only [Address.read?, hm, hmodField, hrmField] at hrun
      rw [if_neg hf] at hrun
      split at hrun
      · next hsize =>
          obtain ⟨x, hread, rfl⟩ := of_map_ok hrun
          obtain ⟨disp, htook, hs, hlen⟩ := read16_took hmod hread
          rw [hsize]
          exact ⟨x, none, disp, rfl, htook, hs, (Bool.and_false _).symm, hlen⟩
      · next hsize =>
          split at hrun
          · next hrm =>
              obtain ⟨x, hread, rfl⟩ := of_map_ok hrun
              obtain ⟨sib, disp, htook, hs, hlen⟩ := readSib_took hmod hsize hread
              rw [hrm, decide_eq_true hsize]
              exact ⟨x, some sib, disp, rfl, htook, hs, rfl, hlen⟩
          · next hrm =>
              obtain ⟨x, hread, rfl⟩ := of_map_ok hrun
              obtain ⟨disp, htook, hs, hlen⟩ := readPlain_took hmod hsize hrm hread
              rw [beq_eq_false_iff_ne.mpr hrm]
              exact ⟨x, none, disp, rfl, htook, hs, rfl, hlen⟩

theorem readAddress_took {a : Option Address} (hrun : readAddress f t = .ok a t') :
    ∃ sib disp, t.Took t' (sib.toList ++ disp) ∧ f.SpellsAddress a sib disp := by
  rw [readAddress] at hrun
  split at hrun
  · next hany =>
      cases hrun
      exact ⟨none, [], .refl t, .none (by rw [Frame.hasAddress, hany]; rfl)⟩
  · next hany =>
      by_cases hmod : f.modField = 3
      · rw [read?_of_register hmod] at hrun
        cases hrun
        refine ⟨none, [], .refl t, .none ?_⟩
        rw [Frame.hasAddress, hmod]
        exact Bool.and_false _
      · have haddress : f.hasAddress = true := by
          rw [Frame.hasAddress, Bool.eq_false_iff.mpr hany]
          exact bne_iff_ne.mpr hmod
        obtain ⟨x, sib, disp, rfl, htook, hs, hsib, hlen⟩ := read?_took hmod hrun
        refine ⟨sib, disp, htook, haddress.symm, ?_, ?_, ?_⟩
        · rintro _ ⟨⟩
          exact hs
        · rw [hsib, Frame.hasSib, haddress, Bool.true_and]
        · rw [hlen, Frame.dispLength, haddress]
          rfl

/-- Whether a source takes the address, if there is one. -/
def Source.takesAddress : Source → Bool
  | .rm | .mem | .vecRm | .mmxRm | .maskRm => true
  | _ => false

/-- The number of bytes that a slot is read from. -/
def Slot.fieldLength (f : Frame) (slot : Slot) : Nat :=
  match slot.source with
  | .imm | .signedImm | .rel => (slot.size.bits f).toNat / 8
  | .vecImm => 1
  | .offset => f.addressSize.bytes
  | .farPointer => (if f.operandSize = .w16 then 2 else 4) + 2
  | _ => 0

namespace Frame

/-- The number of bits that a memory operand accesses; a broadcast accesses one element. -/
def accessed (f : Frame) (size : UInt16) : UInt16 :=
  if f.isEvex && f.head.fields.broadcast then (f.row.broadcast.getD .e32).bits else size

/-- What a displacement is multiplied by: EVEX scales a single byte by the number of bytes that
are accessed. -/
def dispScale (f : Frame) (size : UInt16) (disp : List UInt8) : Nat :=
  if f.isEvex && disp.length == 1 then max ((f.accessed size).toNat / 8) 1 else 1

/-- The displacement that bytes stand for. -/
def displacement (f : Frame) (size : UInt16) (disp : List UInt8) : Int64 :=
  signed64 disp * Int64.ofNat (f.dispScale size disp)

end Frame

/-- What a slot means, given its own bytes and those of the displacement, in an instruction of
some address and length. -/
def Slot.Means (f : Frame) (disp : List UInt8) (address : UInt64) (length : Nat) (slot : Slot)
    (field : List UInt8) (kinds : List OperandKind) : Prop :=
  match slot.source with
  | .imm => kinds = [.immediate (unsigned64 field).toInt64]
  | .signedImm => kinds = [.immediate (signed64 field)]
  | .one => kinds = [.immediate 1]
  | .rel => kinds = [.immediate (branchTarget f address length (signed64 field)).toInt64]
  | .farPointer => ∃ offset selector, field = offset ++ selector ∧ selector.length = 2 ∧
      kinds = [.immediate (unsigned64 selector).toInt64, .immediate (unsigned64 offset).toInt64]
  | .offset => ∃ m : MemoryRef, kinds = [.memory m] ∧ m.disp = (unsigned64 field).toInt64
  | .rm | .mem | .vecRm | .mmxRm | .maskRm =>
    if f.hasAddress then
      ∃ m : MemoryRef, kinds = [.memory m] ∧ m.disp = f.displacement (slot.size.bits f) disp
    else ∃ r, kinds = [.register r]
  | .stringSource | .stringDest => ∃ m : MemoryRef, kinds = [.memory m] ∧ m.disp = 0
  | .vecImm => ∃ imm, field = [imm] ∧
      kinds = [.register (.ofX86 (.vectorOf (imm >>> 4 &&& if f.head.mode.isLong then 15 else 7)
        (vectorBits (slot.size.bits f))))]
  | _ => ∃ r, kinds = [.register r]

/-- What reading a slot gave: operands as the slot means them, and a displacement if the slot
scaled it. -/
structure Slot.Yields (f : Frame) (disp : List UInt8) (address : UInt64) (length : Nat)
    (slot : Slot) (field : List UInt8) (value : SlotValue) : Prop where
  field_length : field.length = slot.fieldLength f
  means : slot.Means f disp address length field (value.operands.map Operand.kind)
  disp_none : slot.source.takesAddress = false ∨ f.hasAddress = false → value.disp = none
  disp_some : slot.source.takesAddress = true → f.hasAddress = true →
    value.disp.getD (signed64 disp) = f.displacement (slot.size.bits f) disp

/-! ## Reading a slot

There are two sorts of sources. Those that take the address have no field, give a memory
operand or a register as the ModRM byte says, and are dealt with together. Every other
source is a case of its own in `readSlot_took`, because each reads its field in another
way. -/

section ReadSlot

variable {a : Option Address} {x : Address} {sib : Option UInt8} {disp : List UInt8}
  {size : UInt16} {access : Access} {value register : SlotValue} {slot : Slot}
  {address : UInt64}

/-- A memory operand at a displacement, which the value repeats if the operand scaled it. -/
def SlotValue.IsMemoryAt (value : SlotValue) (raw d : Int64) : Prop :=
  (∃ m : MemoryRef, value.operands.map Operand.kind = [.memory m] ∧ m.disp = d) ∧
    value.disp.getD raw = d

theorem scaled_isMemoryAt {bits : UInt16} {broadcast : Option Broadcast}
    (hx : x.Spelled sib disp) (hevex : f.isEvex = true) (hbits : f.accessed size = bits) :
    (memoryOperand.scaled x access bits broadcast).IsMemoryAt (signed64 disp)
      (f.displacement size disp) := by
  rw [Frame.displacement, Frame.dispScale, hevex, Bool.true_and, hbits, memoryOperand.scaled,
    hx.short_eq, hx.disp_eq]
  by_cases hlen : disp.length = 1
  · rw [decide_eq_true hlen, beq_iff_eq.mpr hlen]
    exact ⟨⟨_, rfl, rfl⟩, rfl⟩
  · rw [decide_eq_false hlen, beq_eq_false_iff_ne.mpr hlen]
    have hone : signed64 disp = signed64 disp * Int64.ofNat 1 := (Int64.mul_one _).symm
    exact ⟨⟨_, rfl, hone⟩, hone⟩

theorem memoryOperand_isMemoryAt (hx : x.Spelled sib disp)
    (hok : memoryOperand f x size access = .ok value) :
    value.IsMemoryAt (signed64 disp) (f.displacement size disp) := by
  rw [memoryOperand] at hok
  split at hok
  · next hevex =>
      split at hok
      · next hbroadcast =>
          have haccessed : f.accessed size =
              (if f.row.broadcast = some .e64 then Element.e64 else .e32).bits := by
            rw [Frame.accessed, hevex, hbroadcast]
            cases f.row.broadcast with
            | none => rfl
            | some e => cases e <;> rfl
          simp only [] at hok
          split at hok
          · cases hok
          · cases hok
            exact scaled_isMemoryAt hx hevex haccessed
      · next hbroadcast =>
          have haccessed : f.accessed size = size := by
            rw [Frame.accessed, Bool.eq_false_iff.mpr hbroadcast, Bool.and_false]
            rfl
          cases hok
          exact scaled_isMemoryAt hx hevex haccessed
  · next hevex =>
      cases hok
      have hone : x.memory.disp = f.displacement size disp := by
        rw [Frame.displacement, Frame.dispScale, Bool.eq_false_iff.mpr hevex, hx.disp_eq]
        exact (Int64.mul_one _).symm
      exact ⟨⟨_, rfl, hone⟩, by rw [← hone, hx.disp_eq]; rfl⟩

theorem Slot.means_of_takesAddress (hslot : slot.source.takesAddress = true) (length : Nat)
    (field : List UInt8) (kinds : List OperandKind) :
    slot.Means f disp address length field kinds ↔
      if f.hasAddress then
        ∃ m : MemoryRef, kinds = [.memory m] ∧ m.disp = f.displacement (slot.size.bits f) disp
      else ∃ r, kinds = [.register r] := by
  cases hsource : slot.source <;> rw [hsource] at hslot <;> cases hslot <;>
    simp only [Slot.Means, hsource]

theorem Slot.fieldLength_of_takesAddress (hslot : slot.source.takesAddress = true) :
    slot.fieldLength f = 0 := by
  cases hsource : slot.source <;> rw [hsource] at hslot <;> cases hslot <;>
    simp only [Slot.fieldLength, hsource]

theorem yields_of_isMemoryAt (hslot : slot.source.takesAddress = true)
    (hf : f.hasAddress = true) (length : Nat)
    (hvalue : value.IsMemoryAt (signed64 disp) (f.displacement (slot.size.bits f) disp)) :
    slot.Yields f disp address length [] value where
  field_length := (Slot.fieldLength_of_takesAddress hslot).symm
  means := by
    rw [Slot.means_of_takesAddress hslot, if_pos hf]
    exact hvalue.1
  disp_none := by
    rw [hslot, hf]
    rintro (h | h) <;> cases h
  disp_some _ _ := hvalue.2

theorem yields_of_rmValue (hslot : slot.source.takesAddress = true)
    (hs : f.SpellsAddress a sib disp) (length : Nat)
    (hregister : ∃ r, register.operands.map Operand.kind = [.register r])
    (hnone : register.disp = none)
    (hok : rmValue f a (slot.size.bits f) access register = .ok value) :
    slot.Yields f disp address length [] value := by
  have hsome := hs.isSome_eq
  cases a with
  | some x =>
      exact yields_of_isMemoryAt hslot hsome.symm length
        (memoryOperand_isMemoryAt (hs.spelled x rfl) hok)
  | none =>
      cases hok
      refine ⟨(Slot.fieldLength_of_takesAddress hslot).symm, ?_, fun _ => hnone, ?_⟩
      · rw [Slot.means_of_takesAddress hslot, ← hsome]
        exact hregister
      · rw [← hsome]
        intro _ h
        cases h

theorem liftExcept_ok {e : Except Fault SlotValue}
    (hrun : readSlot.liftExcept e t = .ok value t') : e = .ok value ∧ t' = t := by
  cases e with
  | ok v =>
      cases hrun
      exact ⟨rfl, rfl⟩
  | error fault => cases hrun

theorem rmRegister_ok (hok : rmRegister a register = .ok value) : value = register := by
  cases a with
  | some x => cases hok
  | none =>
      cases hok
      rfl

/-- Whether the size of an immediate is one that immediates have. -/
def Slot.regular (slot : Slot) : Bool :=
  match slot.source with
  | .imm | .signedImm | .rel => slot.size ∈ [.b8, .b16, .b32, .v, .z]
  | _ => true

theorem immediateBytes_of_mem {size : Size} (hsize : size ∈ [Size.b8, .b16, .b32, .v, .z])
    (f : Frame) : immediateBytes (size.bits f) = (size.bits f).toNat / 8 := by
  simp only [List.mem_cons, List.not_mem_nil, or_false] at hsize
  rcases hsize with rfl | rfl | rfl | rfl | rfl <;> rw [Size.bits]
  · rfl
  · rfl
  · rfl
  · cases f.operandSize <;> rfl
  · split <;> rfl

theorem Slot.Yields.of_not_takesAddress {length : Nat} {field : List UInt8}
    (hslot : slot.source.takesAddress = false) (hlen : field.length = slot.fieldLength f)
    (hmeans : slot.Means f disp address length field (value.operands.map Operand.kind))
    (hnone : value.disp = none) : slot.Yields f disp address length field value where
  field_length := hlen
  means := hmeans
  disp_none _ := hnone
  disp_some h := by rw [hslot] at h; cases h

theorem readSlot_took (hs : f.SpellsAddress a sib disp) (hregular : slot.regular = true)
    (hrun : readSlot f a address slot t = .ok value t') :
    ∃ field, t.Took t' field ∧ slot.Yields f disp address t'.used field value := by
  obtain ⟨source, size, access⟩ := slot
  cases source
  case rm | vecRm | mmxRm | maskRm =>
    obtain ⟨hok, rfl⟩ := liftExcept_ok hrun
    exact ⟨[], .refl _, yields_of_rmValue rfl hs _ ⟨_, rfl⟩ rfl hok⟩
  case mem =>
    have hsome := hs.isSome_eq
    cases a with
    | none => cases hrun
    | some x =>
        obtain ⟨hok, rfl⟩ := liftExcept_ok hrun
        exact ⟨[], .refl _, yields_of_isMemoryAt rfl hsome.symm _
          (memoryOperand_isMemoryAt (hs.spelled x rfl) hok)⟩
  case imm =>
    obtain ⟨number, t₁, hread, hpure⟩ := of_bind_ok hrun
    cases hpure
    obtain ⟨field, htook, hlen, rfl⟩ := unsigned_took hread
    rw [immediateBytes_of_mem (of_decide_eq_true hregular)] at hlen
    exact ⟨field, htook, .of_not_takesAddress rfl hlen rfl rfl⟩
  case signedImm =>
    obtain ⟨number, t₁, hread, hpure⟩ := of_bind_ok hrun
    cases hpure
    obtain ⟨field, htook, hlen, rfl⟩ := signed_took hread
    rw [immediateBytes_of_mem (of_decide_eq_true hregular)] at hlen
    exact ⟨field, htook, .of_not_takesAddress rfl hlen rfl rfl⟩
  case rel =>
    obtain ⟨number, t₁, hread, hrest⟩ := of_bind_ok hrun
    obtain ⟨length, t₂, hused, hpure⟩ := of_bind_ok hrest
    cases hused
    cases hpure
    obtain ⟨field, htook, hlen, rfl⟩ := signed_took hread
    rw [immediateBytes_of_mem (of_decide_eq_true hregular)] at hlen
    exact ⟨field, htook, .of_not_takesAddress rfl hlen rfl rfl⟩
  case offset =>
    obtain ⟨number, t₁, hread, hpure⟩ := of_bind_ok hrun
    cases hpure
    obtain ⟨field, htook, hlen, rfl⟩ := unsigned_took hread
    exact ⟨field, htook, .of_not_takesAddress rfl hlen ⟨_, rfl, rfl⟩ rfl⟩
  case farPointer =>
    obtain ⟨number, t₁, hread, hrest⟩ := of_bind_ok hrun
    obtain ⟨selector, t₂, hread', hpure⟩ := of_bind_ok hrest
    cases hpure
    obtain ⟨offset, htook, hlen, rfl⟩ := unsigned_took hread
    obtain ⟨selector, htook', hlen', rfl⟩ := unsigned_took hread'
    refine ⟨offset ++ selector, htook.trans htook', .of_not_takesAddress rfl ?_
      ⟨offset, selector, rfl, hlen', rfl⟩ rfl⟩
    rw [List.length_append, hlen, hlen']
    rfl
  case vecImm =>
    obtain ⟨imm, t₁, hread, hpure⟩ := of_bind_ok hrun
    cases hpure
    exact ⟨[imm], byte_took hread, .of_not_takesAddress rfl rfl ⟨imm, rfl, rfl⟩ rfl⟩
  case rmReg | vecRmReg | mmxRmReg =>
    obtain ⟨hok, rfl⟩ := liftExcept_ok hrun
    obtain rfl := rmRegister_ok hok
    exact ⟨[], .refl _, .of_not_takesAddress rfl rfl ⟨_, rfl⟩ rfl⟩
  case segmentReg =>
    simp only [readSlot] at hrun
    split at hrun
    · cases hrun
    · cases hrun
      exact ⟨[], .refl _, .of_not_takesAddress rfl rfl ⟨_, rfl⟩ rfl⟩
  case one =>
    cases hrun
    exact ⟨[], .refl _, .of_not_takesAddress rfl rfl rfl rfl⟩
  case stringSource | stringDest =>
    cases hrun
    exact ⟨[], .refl _, .of_not_takesAddress rfl rfl ⟨_, rfl, rfl⟩ rfl⟩
  all_goals
    cases hrun
    exact ⟨[], .refl _, .of_not_takesAddress rfl rfl ⟨_, rfl⟩ rfl⟩

end ReadSlot

/-! ## Reading all slots

A target is relative to the end of the instruction, which is not known before all slots
are read. But nothing is read behind a branch displacement, so the end is where its slot
ends, and no other slot asks for the length. -/

/-- A slot, the bytes it was read from, and what it yielded. -/
structure Part where
  slot : Slot
  field : List UInt8
  value : SlotValue

/-- What the operands of a slot are. -/
def Part.kinds (p : Part) : List OperandKind :=
  p.value.operands.map Operand.kind

/-- What the slots add to a body. -/
structure Body.Collects (body body' : Body) (parts : List Part) : Prop where
  operands_eq : body'.operands = body.operands ++ parts.flatMap (·.value.operands)
  sib_eq : body'.sib = body.sib
  disp_eq : body'.disp = parts.foldl (fun d p => p.value.disp.getD d) body.disp

section ReadSlots

variable {disp : List UInt8} {address : UInt64} {slot : Slot} {field : List UInt8}
  {value : SlotValue}

/-- Only a branch target depends on the length. -/
theorem Slot.Yields.of_not_rel {length : Nat} (hslot : slot.source ≠ .rel)
    (hy : slot.Yields f disp address length field value) (length' : Nat) :
    slot.Yields f disp address length' field value where
  field_length := hy.field_length
  means := by
    have hmeans := hy.means
    obtain ⟨source, size, access⟩ := slot
    cases source with
    | rel => exact absurd rfl hslot
    | _ => exact hmeans
  disp_none := hy.disp_none
  disp_some := hy.disp_some

/-- The slots are read one after the other. -/
theorem readSlots_took {a : Option Address} {sib : Option UInt8} {slots : List Slot}
    {body body' : Body} (hs : f.SpellsAddress a sib disp)
    (hregular : ∀ slot ∈ slots, slot.regular = true)
    (hrel : ∀ before slot after, slots = before ++ slot :: after → slot.source = .rel →
      after = [])
    (hrun : readSlots f a address slots body t = .ok body' t') :
    ∃ parts : List Part, parts.map Part.slot = slots ∧ t.Took t' (parts.flatMap Part.field) ∧
      (∀ p ∈ parts, ∃ t t', readSlot f a address p.slot t = .ok p.value t') ∧
      (∀ p ∈ parts, p.slot.Yields f disp address t'.used p.field p.value) ∧
      body.Collects body' parts := by
  induction slots generalizing body t with
  | nil =>
      cases hrun
      refine ⟨[], rfl, .refl _, fun _ hp => (by cases hp), fun _ hp => (by cases hp), ?_, rfl, rfl⟩
      exact (List.append_nil _).symm
  | cons slot slots ih =>
      obtain ⟨value, t₁, hslot, hrest⟩ := of_bind_ok hrun
      obtain ⟨field, htook, hyields⟩ :=
        readSlot_took hs (hregular slot List.mem_cons_self) hslot
      obtain ⟨parts, rfl, htooks, hreads, hparts, hcollects⟩ := ih
        (fun s hmem => hregular s (List.mem_cons_of_mem slot hmem))
        (fun before s after hsplit => hrel (slot :: before) s after (by rw [hsplit]; rfl)) hrest
      refine ⟨⟨slot, field, value⟩ :: parts, rfl, htook.trans htooks,
        List.forall_mem_cons.mpr ⟨⟨t, t₁, hslot⟩, hreads⟩, ?_, ?_, hcollects.sib_eq,
        hcollects.disp_eq⟩
      · intro p hp
        rcases List.mem_cons.mp hp with rfl | hmem
        · by_cases hsource : slot.source = .rel
          · -- nothing is read behind a branch displacement
            have hnil := List.map_eq_nil_iff.mp (hrel [] slot _ rfl hsource)
            rw [hnil] at htooks
            rw [htooks.used_eq]
            exact hyields
          · exact hyields.of_not_rel hsource _
        · exact hparts p hmem
      · rw [hcollects.operands_eq, List.append_assoc, List.flatMap_cons]

end ReadSlots

/-- The mask on the first operand does not change what it is. -/
theorem decorate_kinds (f : Frame) (operands : List Operand) :
    (decorate f operands).map Operand.kind = operands.map Operand.kind := by
  rw [decorate.eq_def]
  split
  · cases operands <;> rfl
  · rfl

/-- How a body is spelled behind its SIB byte: a displacement, and the fields of the slots. -/
structure Frame.SpellsBody (f : Frame) (body : Body) (address : UInt64) (length : Nat)
    (disp : List UInt8) (parts : List Part) : Prop where
  sib_isSome : body.sib.isSome = f.hasSib
  disp_length : disp.length = f.dispLength body.sib
  slots_eq : parts.map Part.slot = f.row.slots
  yields : ∀ p ∈ parts, p.slot.Yields f disp address length p.field p.value
  kinds_eq : body.operands.map Operand.kind = parts.flatMap Part.kinds
  disp_eq : body.disp = parts.foldl (fun d p => p.value.disp.getD d) (signed64 disp)

/-- Without an address there is no displacement, and its value is that of no bytes. -/
theorem Frame.SpellsAddress.elim_disp {a : Option Address} {sib : Option UInt8}
    {disp : List UInt8} (hs : f.SpellsAddress a sib disp) :
    a.elim 0 (·.memory.disp) = signed64 disp := by
  cases a with
  | some x => exact (hs.spelled x rfl).disp_eq
  | none =>
      have hlen := hs.disp_length
      rw [dispLength, ← hs.isSome_eq] at hlen
      rw [List.eq_nil_of_length_eq_zero hlen]
      rfl

/-- How the operands are spelled, and which reader gave those of a slot. -/
structure Frame.SpellsOperands (f : Frame) (a : Option Address) (body : Body) (address : UInt64)
    (length : Nat) (disp : List UInt8) (parts : List Part) : Prop where
  spelled : f.SpellsBody body address length disp parts
  spells_address : f.SpellsAddress a body.sib disp
  reads : ∀ p ∈ parts, ∃ t t', readSlot f a address p.slot t = .ok p.value t'
  operands_eq : body.operands = parts.flatMap (·.value.operands)

theorem readOperands_took {address : UInt64} {body : Body}
    (hregular : ∀ slot ∈ f.row.slots, slot.regular = true)
    (hrel : ∀ before slot after, f.row.slots = before ++ slot :: after → slot.source = .rel →
      after = [])
    (hrun : readOperands f address t = .ok body t') :
    ∃ a t₁ disp parts, readAddress f t = .ok a t₁ ∧
      t.Took t' (body.sib.toList ++ disp ++ parts.flatMap Part.field) ∧
      f.SpellsOperands a body address t'.used disp parts := by
  obtain ⟨a, t₁, haddress, hslots⟩ := of_bind_ok hrun
  obtain ⟨sib, disp, htook, hs⟩ := readAddress_took haddress
  obtain ⟨parts, hmap, htooks, hreads, hyields, hcollects⟩ :=
    readSlots_took hs hregular hrel hslots
  obtain rfl : body.sib = sib := hcollects.sib_eq.trans hs.bind_sib
  have hoperands : body.operands = parts.flatMap (·.value.operands) := by
    rw [hcollects.operands_eq, List.nil_append]
  refine ⟨a, t₁, disp, parts, haddress, htook.trans htooks, ?_, hs, hreads, hoperands⟩
  refine ⟨hs.sib_isSome, hs.disp_length, hmap, hyields, ?_, ?_⟩
  · rw [hoperands, List.map_flatMap]
    rfl
  · rw [hcollects.disp_eq, hs.elim_disp]

/-- A body is the operands, decorated, if they end within the longest instruction. -/
theorem operands_of_readBody {address : UInt64} {body : Body}
    (hrun : readBody f address t = .ok body t') :
    ∃ body₁, readOperands f address t = .ok body₁ t' ∧ t'.used ≤ maxLength ∧
      body = { body₁ with operands := decorate f body₁.operands } := by
  obtain ⟨body₁, t₁, hoperands, hrest⟩ := of_bind_ok hrun
  obtain ⟨length, t₂, hused, hcheck⟩ := of_bind_ok hrest
  cases hused
  split at hcheck
  · cases hcheck
  · next hle =>
      cases hcheck
      exact ⟨body₁, of_inOperand_ok hoperands, Nat.le_of_not_gt hle, rfl⟩

theorem readBody_took {address : UInt64} {body : Body}
    (hregular : ∀ slot ∈ f.row.slots, slot.regular = true)
    (hrel : ∀ before slot after, f.row.slots = before ++ slot :: after → slot.source = .rel →
      after = [])
    (hrun : readBody f address t = .ok body t') :
    ∃ disp parts, t.Took t' (body.sib.toList ++ disp ++ parts.flatMap Part.field) ∧
      f.SpellsBody body address t'.used disp parts := by
  obtain ⟨body₁, hoperands, -, rfl⟩ := operands_of_readBody hrun
  obtain ⟨a, t₁, disp, parts, -, htook, hspells⟩ := readOperands_took hregular hrel hoperands
  refine ⟨disp, parts, htook, { hspells.spelled with kinds_eq := ?_ }⟩
  rw [decorate_kinds]
  exact hspells.spelled.kinds_eq

end MachineCode.X86
