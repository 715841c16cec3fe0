import MachineCode.Proofs.Truncation
import MachineCode.Proofs.X86.BodyBytes
import MachineCode.Proofs.X86.FrameBytes
import Mathlib.Data.List.Infix

/-!
# The layout of an instruction

The bytes of an instruction are prefixes, escape, opcode, ModRM byte, SIB byte,
displacement and immediates, in this order and with nothing between them. What
the record says about the encoding is read off these parts, and every operand is
the value of the bytes that its slot was read from.

The stages give the parts one after the other. What is left is a matter of the
rows: a row with an absolute offset has no other field, so that the offset may
count as displacement; nothing follows a branch displacement, so that the target
is relative to the end; and a row whose ModRM byte may have the memory form has
one operand that takes the address.
-/

namespace MachineCode.X86

open Bytes Read

variable {f : Frame}

/-- Whether a source has bytes of its own behind the address. -/
def Source.hasField : Source → Bool
  | .imm | .signedImm | .rel | .vecImm | .offset | .farPointer => true
  | _ => false

/-- Whether a slot is an absolute memory offset. -/
def Slot.isOffset (slot : Slot) : Bool :=
  decide (slot.source = .offset)

/-- How the slots of a row go together. -/
structure Row.Regular (r : Row) : Prop where
  slots : ∀ s ∈ r.slots, s.regular = true
  rel : r.hasSource .rel = true → r.slots.length = 1
  offset : r.hasSource .offset = true → r.needsModrm = false ∧
    (r.slots.filter Slot.isOffset).length = 1 ∧
    ∀ s ∈ r.slots, s.isOffset = false → s.source.hasField = false
  address : r.needsModrm = true → r.hasSource .rmAnyForm = false → r.pattern.form ≠ .register →
    (r.slots.filter (·.source.takesAddress)).length = 1

instance (r : Row) : Decidable r.Regular :=
  decidable_of_iff
    ((∀ s ∈ r.slots, s.regular = true) ∧
      (r.hasSource .rel = true → r.slots.length = 1) ∧
      (r.hasSource .offset = true → r.needsModrm = false ∧
        (r.slots.filter Slot.isOffset).length = 1 ∧
        ∀ s ∈ r.slots, s.isOffset = false → s.source.hasField = false) ∧
      (r.needsModrm = true → r.hasSource .rmAnyForm = false → r.pattern.form ≠ .register →
        (r.slots.filter (·.source.takesAddress)).length = 1))
    ⟨fun ⟨hs, hr, ho, ha⟩ => ⟨hs, hr, ho, ha⟩, fun ⟨hs, hr, ho, ha⟩ => ⟨hs, hr, ho, ha⟩⟩

theorem regular_table : ∀ r ∈ table, r.Regular := by
  decide +kernel

theorem Frame.Chosen.regular (hf : f.Chosen) : f.row.Regular :=
  regular_table f.row (mem_candidates.mp hf.mem).1

/-- Nothing stands behind a branch displacement. -/
theorem Row.Regular.rel_last {r : Row} (hr : r.Regular) {before after : List Slot} {slot : Slot}
    (hsplit : r.slots = before ++ slot :: after) (hslot : slot.source = .rel) : after = [] := by
  have hrel : r.hasSource .rel = true := by
    refine List.any_eq_true.mpr ⟨slot, ?_, decide_eq_true hslot⟩
    rw [hsplit]
    exact List.mem_append_right before List.mem_cons_self
  have hlen := hr.rel hrel
  rw [hsplit, List.length_append, List.length_cons] at hlen
  exact List.eq_nil_of_length_eq_zero (by omega)

/-- A row that rules out the memory form has no address. -/
theorem Frame.Chosen.form_ne_register (hf : f.Chosen) (haddress : f.hasAddress = true) :
    f.row.pattern.form ≠ .register := by
  intro hform
  rw [hasAddress, Bool.and_eq_true, bne_iff_ne] at haddress
  cases hm : f.modrm with
  | none => exact haddress.2 (by rw [modField, hm]; rfl)
  | some m =>
      have haccepts := hf.accepts m hm
      rw [Pattern.acceptsModrm, hform, Bool.and_eq_true] at haccepts
      refine haddress.2 ?_
      rw [modField, hm]
      exact eq_of_beq haccepts.2

theorem Frame.Chosen.hasAddress_of_not_needsModrm (hf : f.Chosen)
    (hneeds : f.row.needsModrm = false) : f.hasAddress = false := by
  have hnone : f.modrm = none := by
    rw [← Option.isNone_iff_eq_none, ← Option.not_isSome, hf.modrm_isSome, hneeds]
    rfl
  rw [hasAddress, modField, hnone]
  exact Bool.and_false _

theorem Frame.Chosen.addressSlots (hf : f.Chosen) (haddress : f.hasAddress = true) :
    (f.row.slots.filter (·.source.takesAddress)).length = 1 := by
  refine hf.regular.address ?_ ?_ (hf.form_ne_register haddress)
  · cases hneeds : f.row.needsModrm with
    | true => rfl
    | false =>
        rw [hf.hasAddress_of_not_needsModrm hneeds] at haddress
        cases haddress
  · rw [hasAddress, Bool.and_eq_true, Bool.not_eq_true'] at haddress
    exact haddress.1

/-! ## Displacement and immediates

The bytes behind ModRM and SIB are displacement or immediate by what they were read for.
An absolute offset counts as displacement though it is the field of a slot. It does not
break the order, since a row with an offset has no ModRM byte and no other field. -/

section Parts

variable {parts : List Part} {body : Body} {address : UInt64} {length : Nat}
  {disp : List UInt8}

/-- The part of the only slot of some kind. -/
theorem exists_filter_eq {slots : List Slot} {q : Slot → Bool}
    (hmap : parts.map Part.slot = slots) (hlen : (slots.filter q).length = 1) :
    ∃ p, parts.filter (q ·.slot) = [p] := by
  rw [← hmap, List.filter_map, List.length_map, List.length_eq_one_iff] at hlen
  exact hlen

theorem Frame.SpellsBody.slot_mem (hb : f.SpellsBody body address length disp parts) {p : Part}
    (hp : p ∈ parts) : p.slot ∈ f.row.slots := by
  rw [← hb.slots_eq]
  exact List.mem_map_of_mem hp

theorem Frame.SpellsBody.disp_eq_nil (hb : f.SpellsBody body address length disp parts)
    (hf : f.hasAddress = false) : disp = [] := by
  have hlen := hb.disp_length
  rw [dispLength, hf] at hlen
  exact List.eq_nil_of_length_eq_zero hlen

/-- The displacement bytes: those of the address, or those of an absolute offset. -/
def displacementBytes (disp : List UInt8) (parts : List Part) : List UInt8 :=
  disp ++ (parts.filter (·.slot.isOffset)).flatMap Part.field

/-- The bytes of the immediates. -/
def immediateFields (parts : List Part) : List UInt8 :=
  (parts.filter (!·.slot.isOffset)).flatMap Part.field

theorem Slot.fieldLength_of_not_hasField {slot : Slot} (hslot : slot.source.hasField = false) :
    slot.fieldLength f = 0 := by
  obtain ⟨source, size, access⟩ := slot
  cases source <;> first | rfl | cases hslot

theorem flatMap_filter_field {q : Part → Bool} (hq : ∀ p ∈ parts, q p = false → p.field = []) :
    (parts.filter q).flatMap Part.field = parts.flatMap Part.field := by
  induction parts with
  | nil => rfl
  | cons p parts ih =>
      have hrest := ih fun x hx => hq x (List.mem_cons_of_mem p hx)
      cases hp : q p with
      | true => rw [List.filter_cons_of_pos hp, List.flatMap_cons, List.flatMap_cons, hrest]
      | false =>
          rw [List.filter_cons_of_neg (Bool.eq_false_iff.mp hp), List.flatMap_cons,
            hq p List.mem_cons_self hp, List.nil_append, hrest]

/-- How the displacement of a body and the fields of its slots divide. -/
structure Frame.Divides (f : Frame) (disp : List UInt8) (sib : Option UInt8)
    (parts : List Part) : Prop where
  append_eq : disp ++ parts.flatMap Part.field =
    displacementBytes disp parts ++ immediateFields parts
  length_eq : (displacementBytes disp parts).length =
    if f.row.hasSource .offset then f.addressSize.bytes else f.dispLength sib
  offset_eq : ∀ p ∈ parts, p.slot.source = .offset → p.field = displacementBytes disp parts

theorem Frame.SpellsBody.divides_of_not_offset
    (hb : f.SpellsBody body address length disp parts)
    (hoffset : f.row.hasSource .offset = false) :
    displacementBytes disp parts = disp ∧ f.Divides disp body.sib parts := by
  have hnot : ∀ p ∈ parts, p.slot.isOffset = false := by
    intro p hp
    exact Bool.eq_false_iff.mpr (List.any_eq_false.mp hoffset p.slot (hb.slot_mem hp))
  have hnone : parts.filter (·.slot.isOffset) = [] :=
    List.filter_eq_nil_iff.mpr fun p hp => Bool.eq_false_iff.mp (hnot p hp)
  have hall : parts.filter (!·.slot.isOffset) = parts :=
    List.filter_eq_self.mpr fun p hp => by rw [hnot p hp]; rfl
  have hdisp : displacementBytes disp parts = disp := by
    rw [displacementBytes, hnone]
    exact List.append_nil disp
  refine ⟨hdisp, ?_, ?_, ?_⟩
  · rw [hdisp, immediateFields, hall]
  · rw [hdisp, hoffset]
    exact hb.disp_length
  · intro p hp hslot
    exact absurd hslot (of_decide_eq_false (hnot p hp))

/-- An absolute offset is the only field of its row, and the row has no address besides. -/
theorem Frame.SpellsBody.divides_of_offset (hf : f.Chosen)
    (hb : f.SpellsBody body address length disp parts)
    (hoffset : f.row.hasSource .offset = true) : f.Divides disp body.sib parts := by
  obtain ⟨hneeds, hlen, hfields⟩ := hf.regular.offset hoffset
  obtain rfl := hb.disp_eq_nil (hf.hasAddress_of_not_needsModrm hneeds)
  obtain ⟨p, honly⟩ := exists_filter_eq hb.slots_eq hlen
  have hnil : ∀ x ∈ parts, x.slot.isOffset = false → x.field = [] := by
    intro x hx hnot
    refine List.eq_nil_of_length_eq_zero ?_
    rw [(hb.yields x hx).field_length,
      Slot.fieldLength_of_not_hasField (hfields x.slot (hb.slot_mem hx) hnot)]
  have hdisp : displacementBytes [] parts = p.field := by
    rw [displacementBytes, honly]
    exact List.append_nil p.field
  have himmediates : immediateFields parts = [] := by
    refine List.flatMap_eq_nil_iff.mpr fun x hx => ?_
    obtain ⟨hx, hnot⟩ := List.mem_filter.mp hx
    rw [Bool.not_eq_true'] at hnot
    exact hnil x hx hnot
  refine ⟨?_, ?_, ?_⟩
  · rw [himmediates, ← flatMap_filter_field hnil, List.append_nil]
    rfl
  · obtain ⟨hp, hsource⟩ := List.mem_filter.mp (honly ▸ List.mem_singleton_self p)
    rw [hdisp, (hb.yields p hp).field_length, Slot.fieldLength, of_decide_eq_true hsource, hoffset]
    rfl
  · intro x hx hsource
    have hmem : x ∈ parts.filter (·.slot.isOffset) :=
      List.mem_filter.mpr ⟨hx, decide_eq_true hsource⟩
    rw [honly, List.mem_singleton] at hmem
    rw [hmem, hdisp]

theorem Frame.SpellsBody.divides (hf : f.Chosen)
    (hb : f.SpellsBody body address length disp parts) : f.Divides disp body.sib parts := by
  cases hoffset : f.row.hasSource .offset with
  | false => exact (hb.divides_of_not_offset hoffset).2
  | true => exact hb.divides_of_offset hf hoffset

/-- With an address, the displacement bytes are those of the address. -/
theorem Frame.SpellsBody.displacementBytes_of_hasAddress (hf : f.Chosen)
    (hb : f.SpellsBody body address length disp parts) (haddress : f.hasAddress = true) :
    displacementBytes disp parts = disp := by
  cases hoffset : f.row.hasSource .offset with
  | false => exact (hb.divides_of_not_offset hoffset).1
  | true =>
      rw [hf.hasAddress_of_not_needsModrm (hf.regular.offset hoffset).1] at haddress
      cases haddress

/-- Without an address, no slot means anything by the displacement. -/
theorem Slot.Means.of_not_hasAddress {slot : Slot} {field : List UInt8}
    {kinds : List OperandKind} (haddress : f.hasAddress = false)
    (hm : slot.Means f disp address length field kinds) (disp' : List UInt8) :
    slot.Means f disp' address length field kinds := by
  cases htakes : slot.source.takesAddress with
  | true =>
      rw [Slot.means_of_takesAddress htakes, haddress] at hm ⊢
      exact hm
  | false =>
      obtain ⟨source, size, access⟩ := slot
      cases source <;> first | exact hm | cases htakes

theorem Frame.SpellsBody.means (hf : f.Chosen)
    (hb : f.SpellsBody body address length disp parts) {p : Part} (hp : p ∈ parts) :
    p.slot.Means f (displacementBytes disp parts) address length p.field p.kinds := by
  have hmeans := (hb.yields p hp).means
  cases haddress : f.hasAddress with
  | true =>
      rw [hb.displacementBytes_of_hasAddress hf haddress]
      exact hmeans
  | false => exact hmeans.of_not_hasAddress haddress _

theorem foldl_disp_of_none (hparts : ∀ p ∈ parts, p.value.disp = none) (d : Int64) :
    parts.foldl (fun d p => p.value.disp.getD d) d = d := by
  induction parts with
  | nil => rfl
  | cons p parts ih =>
      rw [List.foldl_cons, hparts p List.mem_cons_self]
      exact ih fun x hx => hparts x (List.mem_cons_of_mem p hx)

theorem Frame.SpellsBody.disp_of_not_hasAddress
    (hb : f.SpellsBody body address length disp parts) (hf : f.hasAddress = false) :
    body.disp = 0 := by
  rw [hb.disp_eq, foldl_disp_of_none fun p hp => (hb.yields p hp).disp_none (.inr hf),
    hb.disp_eq_nil hf]
  rfl

/-- With an address, one part is made of it, and the others are not. -/
theorem Frame.SpellsBody.exists_addressPart (hf : f.Chosen)
    (hb : f.SpellsBody body address length disp parts) (haddress : f.hasAddress = true) :
    ∃ before p after, parts = before ++ p :: after ∧ p.slot.source.takesAddress = true ∧
      (∀ x ∈ before, x.slot.source.takesAddress = false) ∧
      ∀ x ∈ after, x.slot.source.takesAddress = false := by
  obtain ⟨p, honly⟩ := exists_filter_eq hb.slots_eq (hf.addressSlots haddress)
  obtain ⟨before, after, hsplit, hbefore, htakes, hafter⟩ := List.filter_eq_cons_iff.mp honly
  rw [List.filter_eq_nil_iff] at hafter
  exact ⟨before, p, after, hsplit, htakes, fun x hx => Bool.eq_false_iff.mpr (hbefore x hx),
    fun x hx => Bool.eq_false_iff.mpr (hafter x hx)⟩

/-- The record gives the displacement as the operand that takes the address does. -/
theorem Frame.SpellsBody.disp_of_hasAddress (hf : f.Chosen)
    (hb : f.SpellsBody body address length disp parts) (haddress : f.hasAddress = true) :
    ∃ p ∈ parts, p.slot.source.takesAddress = true ∧
      body.disp = f.displacement (p.slot.size.bits f) (displacementBytes disp parts) := by
  obtain ⟨before, p, after, hsplit, htakes, hbefore, hafter⟩ := hb.exists_addressPart hf haddress
  have hmem : ∀ x, x ∈ before ∨ x = p ∨ x ∈ after → x ∈ parts := by
    intro x hx
    rw [hsplit, List.mem_append, List.mem_cons]
    exact hx
  have hp : p ∈ parts := hmem p (.inr (.inl rfl))
  refine ⟨p, hp, htakes, ?_⟩
  have hnone : ∀ x ∈ parts, x.slot.source.takesAddress = false → x.value.disp = none :=
    fun x hx hslot => (hb.yields x hx).disp_none (.inl hslot)
  rw [hb.displacementBytes_of_hasAddress hf haddress, hb.disp_eq, hsplit, List.foldl_append,
    List.foldl_cons,
    foldl_disp_of_none fun x hx => hnone x (hmem x (.inl hx)) (hbefore x hx),
    foldl_disp_of_none fun x hx => hnone x (hmem x (.inr (.inr hx))) (hafter x hx)]
  exact (hb.yields p hp).disp_some htakes haddress

end Parts

/-- The parts of the bytes of an instruction, in their order. -/
structure Layout where
  prefixes : List UInt8
  escape : List UInt8
  opcode : List UInt8
  modrm : Option UInt8
  sib : Option UInt8
  disp : List UInt8
  immediates : List UInt8

/-- The bytes of an instruction of some layout. -/
def Layout.bytes (l : Layout) : List UInt8 :=
  l.prefixes ++ l.escape ++ l.opcode ++ l.modrm.toList ++ l.sib.toList ++ l.disp ++ l.immediates

/-- The bytes of an instruction, part by part, and what its record says of them. -/
structure Layout.Describes (l : Layout) (f : Frame) (parts : List Part) (i : Instruction)
    (d : Detail) : Prop where
  bytes_eq : i.bytes = l.bytes
  head_spelled : f.head.Spelled {} l.prefixes l.escape l.opcode
  prefixes_length : l.prefixes.length ≤ 14
  encoding_eq : d.encoding = f.head.encoding
  opcode_eq : l.opcode = f.opcode.bytes
  opcode_length : 1 ≤ l.opcode.length ∧ l.opcode.length ≤ 3
  opcode_padded : d.opcode.toList = l.opcode ++ List.replicate (4 - l.opcode.length) 0
  modrm_eq : l.modrm = f.modrm
  modrm_isSome : l.modrm.isSome = f.row.needsModrm
  modrm_detail : d.modrm = l.modrm.getD 0
  sib_isSome : l.sib.isSome = f.hasSib
  sib_detail : d.sib = l.sib.getD 0
  disp_length : l.disp.length =
    if f.row.hasSource .offset then f.addressSize.bytes else f.dispLength l.sib
  /-- The slots of the row, one after the other, and the bytes of each. -/
  slots_eq : parts.map Part.slot = f.row.slots
  field_length : ∀ p ∈ parts, p.field.length = p.slot.fieldLength f
  immediates_eq : l.immediates = immediateFields parts
  /-- An absolute offset stands where a displacement does. -/
  offset_eq : ∀ p ∈ parts, p.slot.source = .offset → p.field = l.disp
  operands_eq : i.operands.map Operand.kind = parts.flatMap Part.kinds
  means : ∀ p ∈ parts, p.slot.Means f l.disp i.address i.length.toNat p.field p.kinds
  /-- With an address one slot takes it, and the record repeats the displacement. -/
  disp_address : f.hasAddress = true → ∃ p ∈ parts, p.slot.source.takesAddress = true ∧
    d.disp = f.displacement (p.slot.size.bits f) l.disp
  disp_none : f.hasAddress = false → d.disp = 0

theorem Opcode.padded_toList {o : Opcode} (hlen : o.bytes.length ≤ 4) :
    o.padded.toList = o.bytes ++ List.replicate (4 - o.bytes.length) 0 := by
  obtain ⟨map, byte, bytes⟩ := o
  match bytes, hlen with
  | [], _ | [_], _ | [_, _], _ | [_, _, _], _ | [_, _, _, _], _ => rfl

theorem instructionOf_describes {mode : Width} {address : UInt64} {bytes : List UInt8}
    {body : Body} (ht : (readParts mode address).Takes 0 bytes (f, body)) :
    ∃ (l : Layout) (parts : List Part),
      l.Describes f parts (instructionOf f body bytes address true) (detailOf f body) := by
  have hlength := (instructionOf_spells f body address true (readParts_takes ht).2).length_eq
  obtain ⟨t₁, hframe, hbody⟩ := of_readParts (ht.run 0)
  obtain ⟨prefixes, escape, htook, -, hspelled, hpos, hle, hchosen⟩ := readFrame_took hframe
  have hregular := hchosen.regular
  obtain ⟨disp, parts, htook', hb⟩ :=
    readBody_took hregular.slots (fun _ _ _ => hregular.rel_last) hbody
  have hdivides := hb.divides hchosen
  let l : Layout :=
    { prefixes, escape, opcode := f.opcode.bytes, modrm := f.modrm, sib := body.sib
      disp := displacementBytes disp parts, immediates := immediateFields parts }
  have hbytes : bytes = l.bytes := by
    have hall := (htook.trans htook').eq_of_rest_nil rfl
    rw [List.append_assoc body.sib.toList, hdivides.append_eq] at hall
    refine hall.symm.trans ?_
    simp only [Layout.bytes, l, List.append_assoc]
  have hprefixes : prefixes.length ≤ 14 := by
    have hcount := hspelled.count_le (Nat.zero_le _)
    rw [hspelled.count_eq, Nat.zero_add] at hcount
    exact hcount
  refine ⟨l, parts, {
    bytes_eq := hbytes
    head_spelled := hspelled
    prefixes_length := hprefixes
    encoding_eq := rfl
    opcode_eq := rfl
    opcode_length := ⟨hpos, hle⟩
    opcode_padded := Opcode.padded_toList (Nat.le_succ_of_le hle)
    modrm_eq := rfl
    modrm_isSome := hchosen.modrm_isSome
    modrm_detail := rfl
    sib_isSome := hb.sib_isSome
    sib_detail := rfl
    disp_length := hdivides.length_eq
    slots_eq := hb.slots_eq
    field_length := fun p hp => (hb.yields p hp).field_length
    immediates_eq := rfl
    offset_eq := hdivides.offset_eq
    operands_eq := hb.kinds_eq
    means := ?_
    disp_address := hb.disp_of_hasAddress hchosen
    disp_none := hb.disp_of_not_hasAddress }⟩
  intro p hp
  rw [hlength, ← Nat.zero_add bytes.length]
  exact hb.means hchosen hp

/-- The bytes of an instruction are prefixes, escape, opcode, ModRM byte, SIB byte, displacement and
immediates. The record repeats them, and its operands mean what their own bytes say. -/
theorem decodeOne_layout {e : Engine} {buffer : List UInt8} {offset next : Nat} {address : UInt64}
    {i : Instruction} (hx86 : e.architecture = .x86) (hdetail : e.options.detail = true)
    (h : e.decodeOne buffer offset address = .ok (i, next)) :
    ∃ (f : Frame) (d : Detail) (l : Layout) (parts : List Part),
      (∃ t, readFrame e.mode.width { rest := i.bytes } = .ok f t) ∧ f.Chosen ∧
      i.detail = .x86 d ∧ l.Describes f parts i d := by
  obtain ⟨taken, rest, -, -, ht, -⟩ := Engine.takes_of_decodeOne h
  rw [Engine.stages_x86 hx86, hdetail] at ht
  obtain ⟨f, body, hparts, rfl⟩ :=
    parts_of_decode (ht.of_atLeast (decode_sequential _ _ address 0 taken))
  obtain ⟨l, parts, hl⟩ := instructionOf_describes hparts
  obtain ⟨_, t, hframe, hrest⟩ := of_bind_ok (hparts.run 0)
  obtain ⟨_, _, -, hpure⟩ := of_bind_ok hrest
  cases hpure
  obtain ⟨-, -, -, -, -, -, -, hchosen⟩ := readFrame_took hframe
  exact ⟨f, detailOf f body, l, parts, ⟨t, hframe⟩, hchosen, rfl, hl⟩

/-- `mov word [esp + 8], 0x1234`: a prefix, and all parts but the escape. -/
theorem decodeOne_layout_mov :
    ∃ (i : Instruction) (f : Frame) (d : Detail) (l : Layout) (parts : List Part),
      Engine.x86Of32.decodeOne [0x66, 0xc7, 0x44, 0x24, 0x08, 0x34, 0x12] 0 0x1000 = .ok (i, 7) ∧
      i.detail = .x86 d ∧ l.Describes f parts i d := by
  obtain ⟨i, h⟩ : ∃ i, Engine.x86Of32.decodeOne [0x66, 0xc7, 0x44, 0x24, 0x08, 0x34, 0x12] 0
      0x1000 = .ok (i, 7) := Engine.exists_of_next (by decide +kernel)
  obtain ⟨f, d, l, parts, -, -, hdetail, hl⟩ := decodeOne_layout rfl rfl h
  exact ⟨i, f, d, l, parts, h, hdetail, hl⟩

-- `vmovups zmm0, [eax + 0x40]`: the one byte of displacement counts accesses of 64 bytes
example :
    (Engine.x86Of32.decodeOne [0x62, 0xf1, 0x7c, 0x48, 0x10, 0x40, 0x01] 0 0x1000).map
      (fun r => r.1.operands.filterMap fun o => o.memory?.map (·.disp)) = .ok [0x40] := by
  decide +kernel

/-! ## Operands that are not their bytes

The target of a branch is relative to the end of the instruction, the constant
one of a shift is not written at all, and an absolute offset is the displacement
of its operand but not of the record. -/

theorem forall_infix {bytes : List UInt8} {P : List UInt8 → Prop}
    (h : ∀ field ∈ bytes.tails.flatMap List.inits, P field) (field : List UInt8)
    (hfield : field <:+: bytes) : P field := by
  obtain ⟨tail, hinit, htail⟩ := List.infix_iff_prefix_suffix.mp hfield
  refine h field (List.mem_flatMap.mpr ⟨tail, ?_, ?_⟩)
  · exact (List.mem_tails _ _).mpr htail
  · exact (List.mem_inits _ _).mpr hinit

theorem decodeOne_operands_beside_bytes :
    (∃ i, Engine.x86Of32.decodeOne [0xeb, 0x02] 0 0x1000 = .ok (i, 2) ∧
      i.operands.map Operand.kind = [.immediate 0x1004] ∧
      ∀ field, field <:+: i.bytes →
        (unsigned64 field).toInt64 ≠ 0x1004 ∧ signed64 field ≠ 0x1004) ∧
    (∃ i, Engine.x86Of32.decodeOne [0xd1, 0xe0] 0 0x1000 = .ok (i, 2) ∧
      .immediate 1 ∈ i.operands.map Operand.kind ∧
      ∀ field, field <:+: i.bytes → (unsigned64 field).toInt64 ≠ 1 ∧ signed64 field ≠ 1) ∧
    ∃ (i : Instruction) (d : Detail),
      Engine.x86Of32.decodeOne [0xa1, 0x00, 0x10, 0x00, 0x00] 0 0x1000 = .ok (i, 5) ∧
      i.detail = .x86 d ∧ signed64 (i.bytes.drop 1) = 0x1000 ∧ d.disp = 0 := by
  -- one evaluation, since most of its time goes into the index of the table
  obtain ⟨hjump, hshift, hload⟩ :
      (Engine.x86Of32.decodeOne [0xeb, 0x02] 0 0x1000).map (fun r =>
        (r.1.bytes, r.1.operands.map Operand.kind, r.2)) =
          .ok ([0xeb, 0x02], [.immediate 0x1004], 2) ∧
      (Engine.x86Of32.decodeOne [0xd1, 0xe0] 0 0x1000).map (fun r =>
        (r.1.bytes, (r.1.operands.map Operand.kind).getLast?, r.2)) =
          .ok ([0xd1, 0xe0], some (.immediate 1), 2) ∧
      (Engine.x86Of32.decodeOne [0xa1, 0x00, 0x10, 0x00, 0x00] 0 0x1000).map (fun r =>
        (r.1.bytes, (match r.1.detail with | .x86 d => some d.disp | _ => none), r.2)) =
          .ok ([0xa1, 0x00, 0x10, 0x00, 0x00], some 0, 5) := by
    decide +kernel
  refine ⟨?_, ?_, ?_⟩
  · obtain ⟨i, next, hrun, hshown⟩ := Engine.exists_of_map hjump
    simp only [Prod.mk.injEq] at hshown
    obtain ⟨hbytes, hkinds, rfl⟩ := hshown
    refine ⟨i, hrun, hkinds, ?_⟩
    rw [hbytes]
    exact forall_infix (by decide)
  · obtain ⟨i, next, hrun, hshown⟩ := Engine.exists_of_map hshift
    simp only [Prod.mk.injEq] at hshown
    obtain ⟨hbytes, hlast, rfl⟩ := hshown
    refine ⟨i, hrun, List.mem_of_getLast? hlast, ?_⟩
    rw [hbytes]
    exact forall_infix (by decide)
  · obtain ⟨i, next, hrun, hshown⟩ := Engine.exists_of_map hload
    simp only [Prod.mk.injEq] at hshown
    obtain ⟨hbytes, hdisp, rfl⟩ := hshown
    split at hdisp
    · next d hdetail =>
        refine ⟨i, d, hrun, hdetail, ?_, Option.some.inj hdisp⟩
        rw [hbytes]
        decide
    · cases hdisp

end MachineCode.X86
