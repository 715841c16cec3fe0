import MachineCode.Proofs.Bearing
import MachineCode.Proofs.Runs
import MachineCode.Proofs.X86.Layout

/-!
# Moving x86 instructions

Only a branch slot looks at the address. Reading the slots of an instruction at
another address is therefore reading them and moving what they yield, and the
rest of a decode passes the values on without looking at them. A row with a
branch slot has no other one, so all operands of an instruction have the same
bearing.
-/

namespace MachineCode.X86

open Bytes Read

variable {f : Frame} {t : Tape} {start dest : UInt64}

/-- The width of branch targets in bits. -/
def Frame.targetBits (f : Frame) : Nat :=
  if f.operandSize = .w16 then 16 else if f.head.mode.isLong then 64 else 32

/-- The bearing of the operands of a slot. -/
def Slot.bearing (f : Frame) (slot : Slot) : Bearing :=
  if slot.source = .rel then .relative f.targetBits else .fixed

/-- The number of operands that a slot yields. -/
def Slot.operandCount (slot : Slot) : Nat :=
  if slot.source = .farPointer then 2 else 1

/-- The bearings of the operands of an instruction. -/
def Frame.bearings (f : Frame) : List Bearing :=
  f.row.slots.flatMap fun slot => List.replicate slot.operandCount (slot.bearing f)

/-- The one bearing that all operands of an instruction have. -/
def Frame.bearing (f : Frame) : Bearing :=
  if f.row.hasSource .rel then .relative f.targetBits else .fixed

def SlotValue.relocate (start dest : UInt64) (b : Bearing) (value : SlotValue) : SlotValue :=
  { value with operands := value.operands.map (Operand.relocate start dest b) }

def Body.relocate (start dest : UInt64) (b : Bearing) (body : Body) : Body :=
  { body with operands := body.operands.map (Operand.relocate start dest b) }

theorem SlotValue.relocate_fixed : SlotValue.relocate start dest .fixed = id := by
  funext value
  rw [relocate, map_relocate_fixed]
  rfl

theorem Body.relocate_fixed : Body.relocate start dest .fixed = id := by
  funext body
  rw [relocate, map_relocate_fixed]
  rfl

theorem branchTarget_eq (f : Frame) (address : UInt64) (length : Nat) (disp : Int64) :
    (branchTarget f address length disp).toInt64 =
      lowAddress f.targetBits (address + UInt64.ofNat length + disp.toUInt64) := by
  rw [branchTarget, Frame.targetBits]
  split
  · exact lowAddress_and_16 _
  · split
    · exact lowAddress_64 _
    · exact lowAddress_and_32 _

theorem Frame.targetBits_le (f : Frame) : f.targetBits ≤ 64 := by
  rw [targetBits]
  split
  · decide
  · split <;> decide

theorem move_branchTarget (f : Frame) (start dest : UInt64) (length : Nat) (disp : Int64) :
    (Bearing.relative f.targetBits).move start dest (branchTarget f start length disp).toInt64 =
      (branchTarget f dest length disp).toInt64 := by
  rw [branchTarget_eq, branchTarget_eq, Bearing.move, lowAddress_add f.targetBits_le]
  congr 1
  grind

/-- Only a branch target looks at the address. -/
theorem readSlot_of_not_rel {slot : Slot} (hslot : slot.source ≠ .rel) (a : Option Address)
    (start dest : UInt64) : readSlot f a dest slot = readSlot f a start slot := by
  obtain ⟨source, size, access⟩ := slot
  cases source with
  | rel => exact absurd rfl hslot
  | _ => rfl

/-- Reading a slot elsewhere is reading it and moving what it yields. -/
theorem readSlot_relocate (f : Frame) (a : Option Address) (start dest : UInt64) (slot : Slot) :
    readSlot f a dest slot =
      SlotValue.relocate start dest (slot.bearing f) <$> readSlot f a start slot := by
  by_cases hslot : slot.source = .rel
  · simp only [readSlot, Slot.bearing, hslot, if_true, map_bind, map_pure]
    refine bind_congr fun disp => bind_congr fun length => ?_
    rw [← move_branchTarget f start dest]
    rfl
  · rw [Slot.bearing, if_neg hslot, SlotValue.relocate_fixed, id_map]
    exact readSlot_of_not_rel hslot a start dest

theorem readSlots_relocate {a : Option Address} {b : Bearing} {slots : List Slot}
    (hslots : ∀ slot ∈ slots, slot.bearing f = b) (body : Body) :
    readSlots f a dest slots (body.relocate start dest b) =
      Body.relocate start dest b <$> readSlots f a start slots body := by
  induction slots generalizing body with
  | nil => simp only [readSlots, map_pure]
  | cons slot slots ih =>
      have htail := fun s hs => hslots s (List.mem_cons_of_mem slot hs)
      simp only [readSlots, map_bind]
      rw [readSlot_relocate f a start dest, hslots slot List.mem_cons_self, bind_map_left]
      refine bind_congr fun value => ?_
      rw [← ih htail]
      simp only [Body.relocate, SlotValue.relocate, List.map_append]

/-- Where a branch target is, it is the only operand. -/
theorem Frame.Chosen.bearing_eq (hf : f.Chosen) :
    ∀ slot ∈ f.row.slots, slot.bearing f = f.bearing := by
  intro slot hslot
  cases hrel : f.row.hasSource .rel with
  | true =>
      obtain ⟨target, htarget⟩ := List.length_eq_one_iff.mp (hf.regular.rel hrel)
      rw [Row.hasSource, htarget, List.any_cons, List.any_nil, Bool.or_false,
        decide_eq_true_eq] at hrel
      rw [htarget, List.mem_singleton] at hslot
      rw [Slot.bearing, hslot, if_pos hrel, Frame.bearing, Row.hasSource, htarget,
        List.any_cons, decide_eq_true hrel]
      rfl
  | false =>
      have hsource : slot.source ≠ .rel := by
        intro h
        rw [Row.hasSource, List.any_eq_false] at hrel
        exact hrel slot hslot (decide_eq_true h)
      rw [Slot.bearing, if_neg hsource, Frame.bearing, hrel]
      rfl

theorem decorate_relocate (f : Frame) (b : Bearing) (operands : List Operand) :
    decorate f (operands.map (Operand.relocate start dest b)) =
      (decorate f operands).map (Operand.relocate start dest b) := by
  rw [decorate.eq_def, decorate.eq_def]
  split
  · cases operands with
    | nil => rfl
    | cons o os =>
        obtain ⟨kind, size, access, broadcast, zeroing, mask⟩ := o
        cases kind <;> rfl
  · rfl

theorem readBody_relocate (hf : f.Chosen) (start dest : UInt64) :
    readBody f dest = Body.relocate start dest f.bearing <$> readBody f start := by
  have hoperands : readOperands f dest =
      Body.relocate start dest f.bearing <$> readOperands f start := by
    simp only [readOperands, map_bind]
    refine bind_congr fun a => ?_
    rw [← readSlots_relocate hf.bearing_eq]
    rfl
  simp only [readBody, map_bind]
  rw [hoperands, inOperand_map, bind_map_left]
  refine bind_congr fun body => bind_congr fun length => ?_
  split
  · rfl
  · rw [map_pure]
    simp only [Body.relocate, decorate_relocate]

theorem detailOf_relocate (f : Frame) (b : Bearing) (body : Body) :
    detailOf f (body.relocate start dest b) = detailOf f body := by
  have hmemory : ∀ operands : List Operand,
      (operands.map (Operand.relocate start dest b)).findSome? Operand.memory? =
        operands.findSome? Operand.memory? := by
    intro operands
    rw [List.findSome?_map]
    exact congrArg (operands.findSome? ·) (funext (Operand.memory?_relocate b))
  rw [detailOf, detailOf, Body.relocate, hmemory]

/-- The parts of an instruction elsewhere. -/
theorem readParts_relocate (mode : Width) (start dest : UInt64) (t : Tape) :
    readParts mode dest t =
      ((fun parts => (parts.1, parts.2.relocate start dest parts.1.bearing)) <$>
        readParts mode start) t := by
  simp only [readParts, map_bind, map_pure]
  cases hframe : readFrame mode t with
  | error e t' => rw [bind_error hframe, bind_error hframe]
  | ok f t' =>
      obtain ⟨-, hchosen⟩ := readFrame_chosen hframe
      rw [bind_ok hframe, bind_ok hframe, readBody_relocate hchosen start dest, bind_map_left]

theorem Slot.Means.length_eq {disp field : List UInt8} {address : UInt64} {length : Nat}
    {slot : Slot} {kinds : List OperandKind}
    (hmeans : slot.Means f disp address length field kinds) :
    kinds.length = slot.operandCount := by
  obtain ⟨source, size, access⟩ := slot
  cases source
  case rm | mem | vecRm | mmxRm | maskRm =>
    rw [Slot.means_of_takesAddress rfl] at hmeans
    split at hmeans
    · obtain ⟨m, rfl, -⟩ := hmeans
      rfl
    · obtain ⟨r, rfl⟩ := hmeans
      rfl
  case farPointer =>
    obtain ⟨offset, selector, -, -, rfl⟩ := hmeans
    rfl
  case imm | signedImm | one | rel =>
    obtain rfl := hmeans
    rfl
  case offset | stringSource | stringDest =>
    obtain ⟨m, rfl, -⟩ := hmeans
    rfl
  case vecImm =>
    obtain ⟨imm, -, rfl⟩ := hmeans
    rfl
  all_goals
    obtain ⟨r, rfl⟩ := hmeans
    rfl

theorem Slot.Means.immediate {disp field : List UInt8} {address : UInt64} {length : Nat}
    {slot : Slot} {kinds : List OperandKind}
    (hmeans : slot.Means f disp address length field kinds) (hslot : slot.bearing f ≠ .fixed) :
    ∀ k ∈ kinds, ∃ value, k = .immediate value := by
  have hrel : slot.source = .rel := by
    by_contra h
    exact hslot (if_neg h)
  rw [Slot.Means, hrel] at hmeans
  intro k hk
  rw [hmeans, List.mem_singleton] at hk
  exact ⟨_, hk⟩

theorem Frame.SpellsBody.length_eq {body : Body} {address : UInt64} {length : Nat}
    {disp : List UInt8} {parts : List Part} (hb : f.SpellsBody body address length disp parts) :
    f.bearings.length = body.operands.length := by
  have hparts : ∀ parts : List Part,
      (∀ p ∈ parts, p.slot.Yields f disp address length p.field p.value) →
      ((parts.map Part.slot).flatMap fun slot =>
        List.replicate slot.operandCount (slot.bearing f)).length =
          (parts.flatMap Part.kinds).length := by
    intro parts hyields
    induction parts with
    | nil => rfl
    | cons p ps ih =>
        have hp := (hyields p List.mem_cons_self).means.length_eq
        have hps := ih fun q hq => hyields q (List.mem_cons_of_mem p hq)
        rw [List.map_cons, List.flatMap_cons, List.flatMap_cons, List.length_append,
          List.length_append, hps, List.length_replicate, ← hp]
        rfl
  rw [bearings, ← hb.slots_eq, hparts parts hb.yields, ← hb.kinds_eq, List.length_map]

theorem instructionOf_relocates (hf : f.Chosen) {body : Body} {t' : Tape}
    (hbody : readBody f start t = .ok body t') (dest : UInt64) (bytes : List UInt8)
    (detail : Bool) :
    (instructionOf f body bytes start detail).Relocates
      (instructionOf f (body.relocate start dest f.bearing) bytes dest detail)
      f.bearings start dest := by
  obtain ⟨disp, parts, -, hb⟩ :=
    readBody_took hf.regular.slots (fun _ _ _ => hf.regular.rel_last) hbody
  have hsame : ∀ b ∈ f.bearings, b = f.bearing := by
    intro b hmem
    obtain ⟨slot, hslot, hb⟩ := List.mem_flatMap.mp hmem
    rw [List.eq_of_mem_replicate hb, hf.bearing_eq slot hslot]
  have hbearings : f.bearings = List.replicate body.operands.length f.bearing :=
    List.eq_replicate_iff.mpr ⟨hb.length_eq, hsame⟩
  have hoperands : List.zipWith (Operand.relocate start dest) f.bearings body.operands =
      (body.relocate start dest f.bearing).operands := by
    rw [hbearings, zipWith_relocate_replicate]
    rfl
  refine ⟨rfl, hb.length_eq, ?_, ?_, ?_⟩
  · simp only [instructionOf, hoperands, detailOf_relocate]
  · rintro ⟨b, o⟩ hp hne
    obtain ⟨hmem, ho⟩ := List.of_mem_zip hp
    obtain ⟨part, hpart, hk⟩ : ∃ p ∈ parts, o.kind ∈ Part.kinds p := by
      rw [← List.mem_flatMap, ← hb.kinds_eq]
      exact List.mem_map_of_mem ho
    refine (hb.yields part hpart).means.immediate ?_ _ hk
    rw [hf.bearing_eq _ (hb.slot_mem hpart), ← hsame b hmem]
    exact hne
  · intro hfixed
    show operandsText f _ = operandsText f _
    rw [← hoperands, zipWith_relocate_fixed hfixed hb.length_eq]

end MachineCode.X86
