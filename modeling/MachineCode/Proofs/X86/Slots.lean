import MachineCode.Proofs.Runs
import MachineCode.Proofs.X86.BodyBytes
import MachineCode.Proofs.X86.FrameBytes
import MachineCode.Proofs.X86.PrefixSummary

/-!
# Where operands come from

Every operand of an instruction was given by a slot of its row. What a slot can
give is said once here, operand by operand: immediates, registers of some class
with a number that the fields can come to, and memory at the address of the ModRM
byte, at an absolute offset or at a string register. What invariants of operands
ask for is read off that. The write mask on the destination changes neither what
an operand is nor how large it is, so what holds of all that slots give holds of
all operands of a decode.
-/

namespace MachineCode.X86

open Bytes Read

variable {f : Frame} {h : Head} {a : Option Address} {slot : Slot}
  {value register : SlotValue} {number ext : UInt8} {address : UInt64} {t t' : Tape}

/-- Whether the fields of an instruction can come to a register number: outside 64-bit mode, with
nothing extended, they have three bits for it. -/
def Head.Reaches (h : Head) (number : UInt8) : Prop :=
  h.mode ≠ .w64 → h.Unextended → number < 8

theorem and_seven_lt (b : UInt8) : b &&& 7 < 8 := by
  rw [UInt8.lt_iff_toNat_lt, UInt8.toNat_and]
  exact Nat.lt_of_le_of_lt Nat.and_le_right (by decide)

theorem Head.Reaches.of_lt (hn : number < 8) : h.Reaches number :=
  fun _ _ => hn

theorem Head.Reaches.extend (hn : h.Reaches number) (hext : h.Unextended → ext = 0) :
    h.Reaches (number ||| ext) := by
  intro hmode hu
  rw [hext hu, UInt8.or_zero]
  exact hn hmode hu

theorem Frame.rmField_lt (f : Frame) : f.rmField < 8 := by
  rw [rmField]
  cases f.modrm with
  | none => decide
  | some m => exact and_seven_lt m

theorem Frame.regField_lt (f : Frame) : f.regField < 8 := by
  rw [regField]
  cases f.modrm with
  | none => decide
  | some m => exact and_seven_lt (m >>> 3)

theorem reaches_vvvv (h : Head) : h.Reaches h.vvvv := by
  intro hmode _
  rw [Head.vvvv, Width.isLong, decide_eq_false hmode]
  exact and_seven_lt _

theorem reaches_vecImm (h : Head) (imm : UInt8) :
    h.Reaches (imm >>> 4 &&& (if h.mode.isLong then 15 else 7)) := by
  intro hmode _
  rw [Width.isLong, decide_eq_false hmode]
  exact and_seven_lt _

theorem highBank_false (f : Frame) : highBank f false = 0 := by
  rw [highBank, Bool.and_false]
  rfl

/-- Whether a source is a general register whenever it is a register. -/
def Source.isGeneral : Source → Bool
  | .rm | .reg | .rmReg | .rmAnyForm | .opcodeReg | .accumulator | .regV => true
  | _ => false

/-- What a displacement is multiplied by; one of a single byte may count accesses of some size. -/
def Address.ScaledBy (x : Address) (size : UInt16) (factor : Nat) : Prop :=
  factor = 1 ∨ (x.shortDisp = true ∧ factor = max (size.toNat / 8) 1)

/-- What a slot can give. -/
inductive Slot.Gives (f : Frame) (a : Option Address) (slot : Slot) : Operand → Prop
  | immediate (value : Int64) (size : UInt16) (hsource : slot.source ≠ .rel) :
      slot.Gives f a (.ofImmediate value size)
  | target (value : Int64) (hsource : slot.source = .rel) :
      slot.Gives f a (.ofImmediate value f.operandSize.bits)
  | general (number : UInt8) (extended : Bool) (hsource : slot.source.isGeneral = true)
      (hnumber : f.head.Reaches number)
      (hextended : extended = true → f.head.hasRex = true ∨ slot.source = .regV) :
      slot.Gives f a (.ofRegister (.ofX86 (.general number (slot.size.bits f) extended))
        (slot.size.bits f) slot.access)
  | fixed (r : Register) (hsource : slot.source = .fixed r) :
      slot.Gives f a (.ofRegister (.ofX86 r) (slot.size.bits f) slot.access)
  | segment (n : Fin 6) (hsource : slot.source = .segmentReg) :
      slot.Gives f a (.ofRegister (.ofX86 (.segment n)) (slot.size.bits f) slot.access)
  | control (number : UInt8) (hnumber : f.head.Reaches number) :
      slot.Gives f a (.ofRegister (.ofX86 (.controlOf number)) (slot.size.bits f) slot.access)
  | debug (number : UInt8) (hnumber : f.head.Reaches number) :
      slot.Gives f a (.ofRegister (.ofX86 (.debugOf number)) (slot.size.bits f) slot.access)
  | opmask (number : UInt8) :
      slot.Gives f a (.ofRegister (.ofX86 (.opmaskOf number)) (slot.size.bits f) slot.access)
  | vector (number : UInt8) (bits : UInt16) (hnumber : f.head.Reaches number) :
      slot.Gives f a (.ofRegister (.ofX86 (.vectorOf number bits))
        (Register.vectorOf number bits).size slot.access)
  | mmx (number : UInt8) :
      slot.Gives f a (.ofRegister (.ofX86 (.mmxOf number)) 64 slot.access)
  | stack (n : BitVec 3) :
      slot.Gives f a (.ofRegister (.ofX86 (.stack n)) 80 slot.access)
  | memory (x : Address) (factor : Nat) (ha : a = some x)
      (hfactor : x.ScaledBy (slot.size.bits f) factor)
      (hbroadcast : (f.isEvex && f.head.fields.broadcast) = false)
      (htakes : slot.source.takesAddress = true) :
      slot.Gives f a (.ofMemory { x.memory with disp := x.memory.disp * Int64.ofNat factor }
        (slot.size.bits f) slot.access)
  /-- One element, broadcast to as many as the slot has. -/
  | element (x : Address) (factor : Nat) (e : Element) (broadcast : Broadcast) (ha : a = some x)
      (hfactor : x.ScaledBy e.bits factor)
      (hbroadcast : (f.isEvex && f.head.fields.broadcast) = true)
      (helement : e = if f.row.broadcast = some .e64 then .e64 else .e32)
      (hcount : Broadcast.ofCount? (slot.size.bits f / e.bits) = some broadcast)
      (htakes : slot.source.takesAddress = true) :
      slot.Gives f a { Operand.ofMemory
        { x.memory with disp := x.memory.disp * Int64.ofNat factor } e.bits slot.access with
        broadcast := some broadcast }
  | offset (value : Int64) (hsource : slot.source = .offset) :
      slot.Gives f a (.ofMemory { segment := .ofX86 f.head.prefixes.segment, disp := value }
        (slot.size.bits f) slot.access)
  | string (segment : Register) (number : UInt8)
      (hsegment : segment = f.head.prefixes.segment ∨ segment = .es)
      (hnumber : number = 6 ∨ number = 7)
      (hsource : slot.source = .stringSource ∨ slot.source = .stringDest) :
      slot.Gives f a (.ofMemory { segment := .ofX86 segment
                                  base := .ofX86 (.general number f.addressSize.bits false) }
        (slot.size.bits f) slot.access)

/-- The slot can give all operands of the value. -/
def SlotValue.GivenBy (f : Frame) (a : Option Address) (slot : Slot) (value : SlotValue) : Prop :=
  ∀ o ∈ value.operands, slot.Gives f a o

theorem SlotValue.GivenBy.of_operand {o : Operand} {disp : Option Int64} {imm8 : Option UInt8}
    (h : slot.Gives f a o) : SlotValue.GivenBy f a slot { operands := [o], disp, imm8 } :=
  List.forall_mem_singleton.mpr h

/-- The displacement that an operand scales, with its factor. -/
theorem exists_scaled (x : Address) (size : UInt16) :
    ∃ factor, x.ScaledBy size factor ∧
      (if x.shortDisp then x.memory.disp * Int64.ofNat (max (size.toNat / 8) 1)
        else x.memory.disp) = x.memory.disp * Int64.ofNat factor := by
  cases hshort : x.shortDisp with
  | true => exact ⟨_, .inr ⟨hshort, rfl⟩, rfl⟩
  | false => exact ⟨1, .inl rfl, (Int64.mul_one _).symm⟩

theorem memoryOperand_givenBy {x : Address} (htakes : slot.source.takesAddress = true)
    (hok : memoryOperand f x (slot.size.bits f) slot.access = .ok value) :
    value.GivenBy f (some x) slot := by
  rw [memoryOperand] at hok
  split at hok
  · next hevex =>
      split at hok
      · next hbit =>
          simp only [] at hok
          split at hok
          · cases hok
          · next broadcast hcount =>
              cases hok
              obtain ⟨factor, hfactor, hdisp⟩ := exists_scaled x
                (if f.row.broadcast = some .e64 then Element.e64 else .e32).bits
              refine .of_operand ?_
              rw [hdisp]
              refine .element x factor _ broadcast rfl hfactor ?_ rfl hcount htakes
              rw [hevex, hbit]
              rfl
      · next hbit =>
          cases hok
          obtain ⟨factor, hfactor, hdisp⟩ := exists_scaled x (slot.size.bits f)
          refine .of_operand ?_
          rw [hdisp]
          refine .memory x factor rfl hfactor ?_ htakes
          rw [Bool.eq_false_iff.mpr hbit, Bool.and_false]
  · next hevex =>
      cases hok
      have hevex' : (f.isEvex && f.head.fields.broadcast) = false := by
        rw [Bool.eq_false_iff.mpr hevex, Bool.false_and]
      have hmemory : slot.Gives f (some x) (.ofMemory
          { x.memory with disp := x.memory.disp * Int64.ofNat 1 } (slot.size.bits f) slot.access) :=
        .memory x 1 rfl (.inl rfl) hevex' htakes
      rw [show x.memory.disp * Int64.ofNat 1 = x.memory.disp from Int64.mul_one _] at hmemory
      exact .of_operand hmemory

theorem rmValue_givenBy (htakes : slot.source.takesAddress = true)
    (hregister : register.GivenBy f a slot)
    (hok : rmValue f a (slot.size.bits f) slot.access register = .ok value) :
    value.GivenBy f a slot := by
  cases a with
  | some x => exact memoryOperand_givenBy htakes hok
  | none =>
      cases hok
      exact hregister

theorem liftExcept_gives {P : SlotValue → Prop} {e : Except Fault SlotValue}
    (h : ∀ v, e = .ok v → P v) : (readSlot.liftExcept e).Gives P :=
  fun _ v _ hrun => h v (liftExcept_ok hrun).1

theorem readSlot_gives (f : Frame) (a : Option Address) (address : UInt64) (slot : Slot) :
    (readSlot f a address slot).Gives (SlotValue.GivenBy f a slot) := by
  have hrm : f.head.Reaches (f.rmField ||| f.head.bExt) :=
    (Head.Reaches.of_lt f.rmField_lt).extend (·.bExt)
  have hreg : f.head.Reaches (f.regField ||| f.head.rExt) :=
    (Head.Reaches.of_lt f.regField_lt).extend (·.rExt)
  have hopcode : f.head.Reaches (f.opcode.byte &&& 7 ||| f.head.bExt) :=
    (Head.Reaches.of_lt (and_seven_lt _)).extend (·.bExt)
  have hreg2 : f.head.Reaches (f.regField ||| f.head.rExt ||| highBank f f.head.fields.r2) :=
    hreg.extend fun hu => by rw [hu.r2_eq, highBank_false]
  have hrm2 : f.head.Reaches (f.rmField ||| f.head.bExt ||| highBank f f.head.fields.x) :=
    hrm.extend fun hu => by rw [hu.x_eq, highBank_false]
  have hgeneral (hsource : slot.source.isGeneral = true) {number : UInt8}
      (hn : f.head.Reaches number) :
      (SlotValue.ofRegister (.general number (slot.size.bits f) f.head.hasRex)
        (slot.size.bits f) slot.access).GivenBy f a slot :=
    .of_operand (.general number _ hsource hn .inl)
  have hvector {number : UInt8} (hn : f.head.Reaches number) (bits : UInt16) :
      (SlotValue.ofWhole (.vectorOf number bits) slot.access).GivenBy f a slot :=
    .of_operand (.vector number bits hn)
  have hregister (r : SlotValue) (hr : r.GivenBy f a slot) (v : SlotValue)
      (hok : rmRegister a r = .ok v) : v.GivenBy f a slot := by
    rw [rmRegister_ok hok]
    exact hr
  cases hsource : slot.source <;> simp only [readSlot, hsource]
  case rm =>
    refine liftExcept_gives fun _ => rmValue_givenBy (by rw [hsource]; rfl) ?_
    exact hgeneral (by rw [hsource]; rfl) hrm
  case rmReg => exact liftExcept_gives (hregister _ (hgeneral (by rw [hsource]; rfl) hrm))
  case rmAnyForm => exact .pure (hgeneral (by rw [hsource]; rfl) hrm)
  case reg => exact .pure (hgeneral (by rw [hsource]; rfl) hreg)
  case opcodeReg => exact .pure (hgeneral (by rw [hsource]; rfl) hopcode)
  case accumulator =>
    refine .pure (.of_operand ?_)
    exact .general 0 false (by rw [hsource]; rfl) (.of_lt (by decide)) Bool.noConfusion
  case regV =>
    refine .pure (.of_operand ?_)
    exact .general _ true (by rw [hsource]; rfl) (reaches_vvvv f.head) fun _ => .inr hsource
  case mem =>
    split
    · exact liftExcept_gives fun _ => memoryOperand_givenBy (by rw [hsource]; rfl)
    · exact .fail _
  case fixed r => exact .pure (.of_operand (.fixed r hsource))
  case segmentReg =>
    split
    · exact .fail _
    · next hr =>
        simp only [Register.segmentOf] at hr ⊢
        split at hr
        · next hlt =>
            rw [dif_pos hlt]
            exact .pure (.of_operand (.segment _ hsource))
        · exact absurd rfl hr
  case controlReg => exact .pure (.of_operand (.control _ hreg))
  case debugReg => exact .pure (.of_operand (.debug _ hreg))
  case maskReg | maskV => exact .pure (.of_operand (.opmask _))
  case maskRm =>
    exact liftExcept_gives fun _ => rmValue_givenBy (by rw [hsource]; rfl)
      (.of_operand (.opmask _))
  case vecReg => exact .pure (hvector hreg2 _)
  case vecRm =>
    exact liftExcept_gives fun _ => rmValue_givenBy (by rw [hsource]; rfl) (hvector hrm2 _)
  case vecRmReg => exact liftExcept_gives (hregister _ (hvector hrm2 _))
  case vecV => exact .pure (hvector (reaches_vvvv f.head) _)
  case vecImm =>
    exact .after fun imm => .pure (.of_operand (.vector _ _ (reaches_vecImm f.head imm)))
  case mmxReg => exact .pure (.of_operand (.mmx _))
  case mmxRm =>
    exact liftExcept_gives fun _ => rmValue_givenBy (by rw [hsource]; rfl) (.of_operand (.mmx _))
  case mmxRmReg => exact liftExcept_gives (hregister _ (.of_operand (.mmx _)))
  case stackTop => exact .pure (.of_operand (.stack 0))
  case stackRm => exact .pure (.of_operand (.stack _))
  case one =>
    refine .pure (.of_operand (.immediate _ _ ?_))
    rw [hsource]
    exact Source.noConfusion
  case imm | signedImm =>
    refine .after fun v => .pure (.of_operand (.immediate _ _ ?_))
    rw [hsource]
    exact Source.noConfusion
  case rel => exact .after fun disp => .after fun length => .pure (.of_operand (.target _ hsource))
  case farPointer =>
    have hfar : slot.source ≠ .rel := by
      rw [hsource]
      exact Source.noConfusion
    refine .after fun offset => .after fun selector => .pure ?_
    exact List.forall_mem_cons.mpr
      ⟨.immediate _ _ hfar, List.forall_mem_singleton.mpr (.immediate _ _ hfar)⟩
  case offset => exact .after fun v => .pure (.of_operand (.offset _ hsource))
  case stringSource => exact .pure (.of_operand (.string _ 6 (.inl rfl) (.inl rfl) (.inl hsource)))
  case stringDest => exact .pure (.of_operand (.string _ 7 (.inr rfl) (.inr rfl) (.inr hsource)))

/-- What a slot can make, by kind and size. -/
inductive Slot.Makes (f : Frame) (a : Option Address) (slot : Slot) :
    OperandKind → UInt16 → Prop
  | immediate (value : Int64) (size : UInt16) : slot.Makes f a (.immediate value) size
  | general (number : UInt8) (extended : Bool) (hsource : slot.source.isGeneral = true) :
      slot.Makes f a (.register (.ofX86 (.general number (slot.size.bits f) extended)))
        (slot.size.bits f)
  | fixed (r : Register) (hsource : slot.source = .fixed r) :
      slot.Makes f a (.register (.ofX86 r)) (slot.size.bits f)
  | segment (n : Fin 6) (hsource : slot.source = .segmentReg) :
      slot.Makes f a (.register (.ofX86 (.segment n))) (slot.size.bits f)
  /-- Control, debug and opmask registers are given the size of the slot. -/
  | special (r : Register) (hkind : r.kind ∈ [.control, .debug, .mask]) :
      slot.Makes f a (.register (.ofX86 r)) (slot.size.bits f)
  | whole (r : Register) (hr : r ≠ .absent) : slot.Makes f a (.register (.ofX86 r)) r.size
  /-- The address, with a single displacement byte scaled by the size of what is accessed. -/
  | address (x : Address) (size : UInt16) (factor : Nat) (ha : a = some x)
      (hsize : size = slot.size.bits f ∨ size = 32 ∨ size = 64)
      (hfactor : factor = 1 ∨ (x.shortDisp = true ∧ factor = max (size.toNat / 8) 1)) :
      slot.Makes f a (.memory { x.memory with disp := x.memory.disp * Int64.ofNat factor }) size
  | offset (value : Int64) (hsource : slot.source = .offset) :
      slot.Makes f a (.memory { segment := .ofX86 f.head.prefixes.segment, disp := value })
        (slot.size.bits f)
  | string (segment : Register) (number : UInt8)
      (hsegment : segment = f.head.prefixes.segment ∨ segment = .es)
      (hnumber : number = 6 ∨ number = 7) :
      slot.Makes f a (.memory { segment := .ofX86 segment
                                base := .ofX86 (.general number f.addressSize.bits false) })
        (slot.size.bits f)

theorem vectorOf_ne_absent (number : UInt8) (bits : UInt16) :
    Register.vectorOf number bits ≠ .absent := by
  simp only [Register.vectorOf]
  split
  · exact Register.noConfusion
  · split <;> exact Register.noConfusion

theorem Slot.Gives.makes {o : Operand} (ho : slot.Gives f a o) : slot.Makes f a o.kind o.size := by
  cases ho with
  | immediate value size | target value => exact .immediate value _
  | general number extended hsource => exact .general number extended hsource
  | fixed r hsource => exact .fixed r hsource
  | segment n hsource => exact .segment n hsource
  | control number =>
      exact .special (.controlOf number) (by simp [Register.controlOf, Register.kind])
  | debug number => exact .special (.debugOf number) (by simp [Register.debugOf, Register.kind])
  | opmask number =>
      exact .special (.opmaskOf number) (by simp [Register.opmaskOf, Register.kind])
  | vector number bits => exact .whole _ (vectorOf_ne_absent number bits)
  | mmx number => exact .whole (.mmxOf number) Register.noConfusion
  | stack n => exact .whole (.stack n) Register.noConfusion
  | memory x factor ha hfactor => exact .address x _ factor ha (.inl rfl) hfactor
  | element x factor e broadcast ha hfactor =>
      refine .address x _ factor ha (.inr ?_) hfactor
      cases e
      · exact .inl rfl
      · exact .inr rfl
  | offset value hsource => exact .offset value hsource
  | string segment number hsegment hnumber => exact .string segment number hsegment hnumber

theorem readSlots_gives (f : Frame) (a : Option Address) (address : UInt64) {slots : List Slot}
    (hslots : ∀ slot ∈ slots, slot ∈ f.row.slots) {body : Body}
    (hbody : ∀ o ∈ body.operands, ∃ slot ∈ f.row.slots, slot.Gives f a o) :
    (readSlots f a address slots body).Gives fun b =>
      ∀ o ∈ b.operands, ∃ slot ∈ f.row.slots, slot.Gives f a o := by
  induction slots generalizing body with
  | nil => exact .pure hbody
  | cons slot slots ih =>
      obtain ⟨hslot, hrest⟩ := List.forall_mem_cons.mp hslots
      refine .bind (readSlot_gives f a address slot) fun value hvalue => ih hrest ?_
      refine List.forall_mem_append.mpr ⟨hbody, fun o ho => ?_⟩
      exact ⟨slot, hslot, hvalue o ho⟩

theorem mem_decorate {operands : List Operand} {o : Operand} (ho : o ∈ decorate f operands) :
    ∃ o' ∈ operands, o.kind = o'.kind ∧ o.size = o'.size ∧
      (o.mask = o'.mask ∨ o.mask = .ofX86 f.opmask) := by
  rw [decorate.eq_def] at ho
  split at ho
  · cases operands with
    | nil => exact absurd ho List.not_mem_nil
    | cons dest others =>
        rcases List.mem_cons.mp ho with rfl | hother
        · exact ⟨dest, List.mem_cons_self, rfl, rfl, .inr rfl⟩
        · exact ⟨o, List.mem_cons_of_mem dest hother, rfl, rfl, .inl rfl⟩
  · exact ⟨o, ho, rfl, rfl, .inl rfl⟩

/-- The operands of a body are those that the slots of the row gave, from the address that was
read, and decorated. -/
theorem given_of_readBody {body : Body} (hrun : readBody f address t = .ok body t') :
    ∃ a t₁ t₂ operands, readAddress f t₁ = .ok a t₂ ∧ body.operands = decorate f operands ∧
      ∀ o ∈ operands, ∃ slot ∈ f.row.slots, slot.Gives f a o := by
  obtain ⟨body₁, hoperands, -, rfl⟩ := operands_of_readBody hrun
  obtain ⟨a, t₁, haddress, hslots⟩ := of_bind_ok hoperands
  have hnone : ∀ o ∈ ([] : List Operand), ∃ slot ∈ f.row.slots, slot.Gives f a o :=
    fun o ho => absurd ho List.not_mem_nil
  exact ⟨a, t, t₁, _, haddress, rfl,
    readSlots_gives f a address (fun _ h => h) hnone _ _ _ hslots⟩

/-- Every operand of a body was made by some slot of the row, from the address that was read. -/
theorem made_of_readBody {body : Body} (hrun : readBody f address t = .ok body t') :
    ∃ a t₁ t₂, readAddress f t₁ = .ok a t₂ ∧
      ∀ o ∈ body.operands, ∃ slot ∈ f.row.slots, slot.Makes f a o.kind o.size := by
  obtain ⟨a, t₁, t₂, operands, haddress, hbody, hgiven⟩ := given_of_readBody hrun
  refine ⟨a, t₁, t₂, haddress, fun o ho => ?_⟩
  rw [hbody] at ho
  obtain ⟨o', ho', hkind, hsize, -⟩ := mem_decorate ho
  obtain ⟨slot, hslot, hgives⟩ := hgiven o' ho'
  rw [hkind, hsize]
  exact ⟨slot, hslot, hgives.makes⟩

/-- What a successful decode read, read once more from the bytes of the instruction alone: a frame,
and a body that ends with them. -/
theorem body_of_decodeOne {e : Engine} {bytes : List UInt8} {offset next : Nat} {i : Instruction}
    (he : e.architecture = .x86) (h : e.decodeOne bytes offset address = .ok (i, next)) :
    ∃ f body t, readFrame e.mode.width { rest := i.bytes } = .ok f t ∧
      readBody f address t = .ok body ⟨0, i.length.toNat, []⟩ ∧
      i = instructionOf f body i.bytes address e.options.detail := by
  obtain ⟨taken, rest, -, -, ht, -⟩ := Engine.takes_of_decodeOne h
  rw [Engine.stages_x86 he] at ht
  obtain ⟨f, body, hparts, rfl⟩ :=
    parts_of_decode (ht.of_atLeast (decode_sequential _ _ address 0 taken))
  have hlength := (instructionOf_spells f body address e.options.detail
    (readParts_takes hparts).2).length_eq
  obtain ⟨t₁, hframe, hbody⟩ := of_readParts (hparts.run 0)
  rw [Nat.zero_add, ← hlength] at hbody
  exact ⟨f, body, t₁, hframe, hbody, rfl⟩

/-- What a successful decode found: a frame in the bytes of the instruction, and operands that the
slots of its row made. -/
theorem made_of_decodeOne {e : Engine} {bytes : List UInt8} {offset next : Nat} {i : Instruction}
    (he : e.architecture = .x86) (h : e.decodeOne bytes offset address = .ok (i, next)) :
    ∃ f a, (∃ t, readFrame e.mode.width { rest := i.bytes } = .ok f t) ∧
      (∃ t t', readAddress f t = .ok a t') ∧
      (∀ d, i.detail = .x86 d → d.addressSize = UInt8.ofNat f.addressSize.bytes) ∧
      ∀ o ∈ i.operands, ∃ slot ∈ f.row.slots, slot.Makes f a o.kind o.size := by
  obtain ⟨f, body, t, hframe, hbody, hi⟩ := body_of_decodeOne he h
  obtain ⟨a, t₁, t₂, haddress, hmade⟩ := made_of_readBody hbody
  rw [hi]
  refine ⟨f, a, ⟨t, hframe⟩, ⟨t₁, t₂, haddress⟩, ?_, hmade⟩
  intro d hd
  simp only [instructionOf] at hd
  split at hd
  · cases hd
    rfl
  · cases hd

end MachineCode.X86
