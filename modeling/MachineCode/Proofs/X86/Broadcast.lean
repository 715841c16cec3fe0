import MachineCode.Proofs.X86.AddressOperand
import MachineCode.Proofs.X86.MemoryRefs

/-!
# Broadcast and compressed displacement

With a memory operand the broadcast bit of EVEX asks for one element in place of a
vector. A row that allows it says how wide an element is, and its slot of the
address holds two, four, eight or sixteen of them whatever the vector length. So
there always is a broadcast of the right number, and the number times the element
is the width of the slot.

A displacement of one byte counts accesses: whole slots, or elements if one is
broadcast. The product is small, so it is the one over the integers, and the
record repeats it.
-/

namespace MachineCode

open Bytes Read

theorem toInt_signed64_byte (b : UInt8) : (signed64 [b]).toInt = b.toInt8.toInt := by
  rw [toInt_signed64 (show [b].length ≤ 8 from Nat.le_add_left 1 7)]
  show (BitVec.ofNat 8 (b.toNat + 256 * 0)).toInt = b.toBitVec.toInt
  exact congrArg BitVec.toInt (BitVec.ofNat_toNat 8 b.toBitVec)

namespace X86

variable {f : Frame} {a : Option Address} {x : Address} {slot : Slot} {o : Operand}
  {m : MemoryRef} {mode : Width} {disp : List UInt8} {t t' : Tape}

/-- The sizes of the slots of which an element can be broadcast. -/
def Element.slotSizes : Element → List Size
  | e32 => [.vec, .vecHalf]
  | e64 => [.vec]

/-- A slot holds as many elements as some broadcast has. -/
theorem exists_broadcast {e : Element} {size : Size} (hsize : size ∈ e.slotSizes) (f : Frame) :
    ∃ b, Broadcast.ofCount? (size.bits f / e.bits) = some b ∧
      b.count.toNat * e.bits.toNat = (size.bits f).toNat := by
  cases e <;> simp only [Element.slotSizes, List.mem_cons, List.not_mem_nil, or_false] at hsize
  · rcases hsize with rfl | rfl <;> rw [Size.bits] <;> cases f.vectorLength
    · exact ⟨.oneTo4, rfl, rfl⟩
    · exact ⟨.oneTo8, rfl, rfl⟩
    · exact ⟨.oneTo16, rfl, rfl⟩
    · exact ⟨.oneTo2, rfl, rfl⟩
    · exact ⟨.oneTo4, rfl, rfl⟩
    · exact ⟨.oneTo8, rfl, rfl⟩
  · subst hsize
    rw [Size.bits]
    cases f.vectorLength
    · exact ⟨.oneTo2, rfl, rfl⟩
    · exact ⟨.oneTo4, rfl, rfl⟩
    · exact ⟨.oneTo8, rfl, rfl⟩

/-- Whether EVEX can scale what a slot accesses: at the address, elements that it can broadcast or
some other width, and nothing elsewhere. -/
def Slot.isScalable (broadcast : Option Element) (slot : Slot) : Bool :=
  if slot.source.takesAddress then
    decide (slot.size ∈
      broadcast.elim [.b32, .b64, .b128, .b256, .vec, .vecHalf] Element.slotSizes)
  else decide (slot.source ∉ [.offset, .stringSource, .stringDest])

theorem isScalable_table : ∀ r ∈ table, r.pattern.encoding = .evex →
    ∀ slot ∈ r.slots, slot.isScalable r.broadcast = true := by
  decide +kernel

theorem Frame.Chosen.isScalable (hf : f.Chosen) (hevex : f.isEvex = true)
    (hslot : slot ∈ f.row.slots) : slot.isScalable f.row.broadcast = true := by
  obtain ⟨hmem, hencoding, -⟩ := mem_candidates.mp hf.mem
  exact isScalable_table f.row hmem (hencoding.trans (of_decide_eq_true hevex)) slot hslot

theorem Slot.le_bits_of_isScalable {broadcast : Option Element}
    (htakes : slot.source.takesAddress = true) (hslot : slot.isScalable broadcast = true)
    (f : Frame) : 32 ≤ (slot.size.bits f).toNat := by
  rw [isScalable, if_pos htakes, decide_eq_true_eq] at hslot
  have hmem : slot.size ∈ [Size.b32, .b64, .b128, .b256, .vec, .vecHalf] := by
    cases broadcast with
    | none => exact hslot
    | some e =>
        cases e <;> simp only [Option.elim, Element.slotSizes, List.mem_cons, List.not_mem_nil,
          or_false] at hslot ⊢
        · rcases hslot with h | h <;> simp [h]
        · simp [hslot]
  generalize slot.size = size at hmem
  simp only [List.mem_cons, List.not_mem_nil, or_false] at hmem
  rcases hmem with rfl | rfl | rfl | rfl | rfl | rfl <;> rw [Size.bits] <;> try decide
  all_goals cases f.vectorLength <;> decide

theorem Frame.isRegisterForm_of_hasAddress (haddress : f.hasAddress = true) :
    isRegisterForm f.modrm = false := by
  rw [hasAddress, Bool.and_eq_true, bne_iff_ne] at haddress
  cases hm : f.modrm with
  | none => rfl
  | some m =>
      have hmod : f.modField = m >>> 6 := by rw [modField, hm]; rfl
      rw [hmod] at haddress
      exact beq_eq_false_iff_ne.mpr haddress.2

/-- With an address, the broadcast bit needs a row that has elements. -/
theorem Frame.exists_element (hallows : allowsFields f.head f.row f.modrm = true)
    (hevex : f.isEvex = true) (haddress : f.hasAddress = true)
    (hbit : f.head.fields.broadcast = true) : ∃ e, f.row.broadcast = some e := by
  have hencoding : f.head.encoding = .evex := of_decide_eq_true hevex
  simp only [allowsFields, hencoding, isRegisterForm_of_hasAddress haddress, hbit, reduceCtorEq,
    if_false, if_true, Bool.not_true, Bool.false_or, Bool.and_eq_true] at hallows
  exact Option.isSome_iff_exists.mp hallows.2.2

/-- A memory operand of EVEX is always formed: no number of elements is without a broadcast. -/
theorem exists_memoryOperand (hf : f.Chosen)
    (hallows : allowsFields f.head f.row f.modrm = true) (hevex : f.isEvex = true)
    (haddress : f.hasAddress = true) (hslot : slot ∈ f.row.slots)
    (htakes : slot.source.takesAddress = true) (x : Address) :
    ∃ value, memoryOperand f x (slot.size.bits f) slot.access = .ok value := by
  rw [memoryOperand, if_pos hevex]
  split
  · next hbit =>
      obtain ⟨e, he⟩ := Frame.exists_element hallows hevex haddress hbit
      have hscalable := hf.isScalable hevex hslot
      rw [Slot.isScalable, if_pos htakes, he, decide_eq_true_eq] at hscalable
      obtain ⟨b, hcount, -⟩ := exists_broadcast hscalable f
      have helement : (if f.row.broadcast = some .e64 then Element.e64 else .e32) = e := by
        rw [he]
        cases e <;> rfl
      simp only [helement, hcount]
      exact ⟨_, rfl⟩
  · exact ⟨_, rfl⟩

/-- How an operand accesses memory, made by a slot from an address with some displacement bytes. -/
structure Frame.Accesses (f : Frame) (slot : Slot) (disp : List UInt8) (o : Operand)
    (m : MemoryRef) : Prop where
  kind_eq : o.kind = .memory m
  /-- The elements that are broadcast make up the width of the slot. -/
  broadcast : f.head.fields.broadcast = true → ∃ e b, f.row.broadcast = some e ∧
    o.broadcast = some b ∧ o.size = e.bits ∧
    b.count.toNat * o.size.toNat = (slot.size.bits f).toNat
  whole : f.head.fields.broadcast = false → o.broadcast = none ∧ o.size = slot.size.bits f
  disp_byte : ∀ d, disp = [d] → m.disp.toInt = d.toInt8.toInt * (o.size.toNat / 8)
  disp_eq : disp.length ≠ 1 → m.disp = signed64 disp

/-- What a slot of the address gives is one element or the whole slot. -/
theorem Slot.Gives.accesses (hf : f.Chosen)
    (hallows : allowsFields f.head f.row f.modrm = true) (hevex : f.isEvex = true)
    (haddress : f.hasAddress = true) (hslot : slot ∈ f.row.slots)
    (htakes : slot.source.takesAddress = true) (ho : slot.Gives f a o)
    (hkind : o.kind = .memory m) (hdisp : m.disp = f.displacement (slot.size.bits f) disp) :
    f.Accesses slot disp o m := by
  have hscalable := hf.isScalable hevex hslot
  have haccessed (hsize : 32 ≤ o.size.toNat ∧ o.size.toNat ≤ 512)
      (hfits : f.accessed (slot.size.bits f) = o.size) :
      (∀ d, disp = [d] → m.disp.toInt = d.toInt8.toInt * (o.size.toNat / 8)) ∧
        (disp.length ≠ 1 → m.disp = signed64 disp) := by
    constructor
    · rintro d rfl
      have hfactor : f.dispScale (slot.size.bits f) [d] = o.size.toNat / 8 := by
        rw [Frame.dispScale, hevex, hfits]
        exact Nat.max_eq_left (by omega)
      have hlo := d.toInt8.le_toInt
      have hhi := d.toInt8.toInt_lt
      rw [← toInt_signed64_byte] at hlo hhi ⊢
      rw [hdisp, Frame.displacement, hfactor, (toInt_scaled hlo (by omega) (by omega)).1]
      rfl
    · intro hlen
      rw [hdisp, Frame.displacement, Frame.dispScale, hevex, beq_eq_false_iff_ne.mpr hlen]
      exact Int64.mul_one _
  have hle : 32 ≤ (slot.size.bits f).toNat ∧ (slot.size.bits f).toNat ≤ 512 :=
    ⟨slot.le_bits_of_isScalable htakes hscalable f, slot.size.bits_le f⟩
  cases ho with
  | memory x factor ha hfactor hbroadcast =>
      rw [hevex, Bool.true_and] at hbroadcast
      obtain ⟨hbyte, helse⟩ := haccessed hle (by rw [Frame.accessed, hbroadcast, Bool.and_false]; rfl)
      refine ⟨hkind, fun hbit => ?_, fun _ => ⟨rfl, rfl⟩, hbyte, helse⟩
      rw [hbroadcast] at hbit
      cases hbit
  | element x factor e b ha hfactor hbroadcast helement hcount =>
      rw [hevex, Bool.true_and] at hbroadcast
      obtain ⟨e', he⟩ := Frame.exists_element hallows hevex haddress hbroadcast
      obtain rfl : e = e' := by
        rw [helement, he]
        cases e' <;> rfl
      rw [Slot.isScalable, if_pos htakes, he, decide_eq_true_eq] at hscalable
      obtain ⟨b', hcount', hproduct⟩ := exists_broadcast hscalable f
      obtain rfl : b = b' := Option.some.inj (hcount.symm.trans hcount')
      have hsize : 32 ≤ e.bits.toNat ∧ e.bits.toNat ≤ 512 := by cases e <;> decide
      obtain ⟨hbyte, helse⟩ := haccessed hsize
        (by rw [Frame.accessed, hevex, hbroadcast, he]; rfl)
      refine ⟨hkind, fun _ => ⟨e, b, he, rfl, rfl, hproduct⟩, fun hbit => ?_, hbyte, helse⟩
      rw [hbroadcast] at hbit
      cases hbit
  | offset value hsource => rw [hsource] at htakes; cases htakes
  | string segment number hsegment hnumber hsource =>
      rcases hsource with hsource | hsource <;> rw [hsource] at htakes <;> cases htakes
  | _ => cases hkind

theorem Frame.Accesses.of_bare {o' : Operand} (h : f.Accesses slot disp o m)
    (hbare : o'.bare = o.bare) : f.Accesses slot disp o' m := by
  have hkind : o'.kind = o.kind := by
    rw [← o'.bare_kind, hbare, o.bare_kind]
  have hsize : o'.size = o.size := by
    rw [← o'.bare_size, hbare, o.bare_size]
  have hbroadcast : o'.broadcast = o.broadcast := by
    rw [← o'.bare_broadcast, hbare, o.bare_broadcast]
  constructor
  · rw [hkind]
    exact h.kind_eq
  · rw [hbroadcast, hsize]
    exact h.broadcast
  · rw [hbroadcast, hsize]
    exact h.whole
  · rw [hsize]
    exact h.disp_byte
  · exact h.disp_eq

/-- A slot that does not take the address gives no memory. -/
theorem Slot.Gives.memory?_eq_none (hf : f.Chosen) (hevex : f.isEvex = true)
    (hslot : slot ∈ f.row.slots) (htakes : slot.source.takesAddress = false)
    (ho : slot.Gives f a o) : o.memory? = none := by
  have hscalable := hf.isScalable hevex hslot
  rw [Slot.isScalable, if_neg (by rw [htakes]; exact Bool.false_ne_true),
    decide_eq_true_eq] at hscalable
  cases ho with
  | memory _ _ _ _ _ htakes' | element _ _ _ _ _ _ _ _ _ htakes' =>
      rw [htakes] at htakes'
      cases htakes'
  | offset value hsource => simp [hsource] at hscalable
  | string segment number hsegment hnumber hsource =>
      rcases hsource with hsource | hsource <;> simp [hsource] at hscalable
  | _ => rfl

/-- What the operands of an EVEX frame with an address are read from, and the one of them that
accesses memory. -/
theorem accesses_of_readOperands {address : UInt64} {body : Body} (hf : f.Chosen)
    (hallows : allowsFields f.head f.row f.modrm = true) (hevex : f.isEvex = true)
    (haddress : f.hasAddress = true)
    (honly : ∀ s ∈ f.row.slots, s.source.takesAddress = true → s = slot)
    (hrun : readOperands f address t = .ok body t') :
    ∃ disp behind o m, t.rest = body.sib.toList ++ disp ++ behind ∧
      body.sib.isSome = f.hasSib ∧ disp.length = f.dispLength body.sib ∧
      (decorate f body.operands).filter (·.memory?.isSome) = [o] ∧ f.Accesses slot disp o m ∧
      body.disp = m.disp := by
  obtain ⟨a, t₁, disp, parts, -, htook, hspells⟩ :=
    readOperands_took hf.regular.slots (fun _ _ _ => hf.regular.rel_last) hrun
  have hspelled := hspells.spelled
  obtain ⟨slot', before, o, after, hplaces⟩ := hspells.placesAddress hf haddress
  obtain rfl := honly slot' hplaces.mem hplaces.takes
  obtain ⟨m, hkind, hdisp⟩ := hplaces.kind
  have haccesses :=
    hplaces.gives.accesses hf hallows hevex haddress hplaces.mem hplaces.takes hkind hdisp
  have hothers : ∀ x, x ∈ before ∨ x ∈ after → x.memory?.isSome = false := by
    intro x hx
    obtain ⟨s, hs, htakes, hgives⟩ := hplaces.others x hx
    rw [hgives.memory?_eq_none hf hevex hs htakes]
    rfl
  obtain ⟨o', hbare, hfilter⟩ := filter_decorate (f := f) (o := o) (q := (·.memory?.isSome))
    (fun _ => rfl) (fun x hx => hothers x (.inl hx)) (fun x hx => hothers x (.inr hx))
  have haccesses' := haccesses.of_bare hbare
  refine ⟨disp, parts.flatMap Part.field ++ t'.rest, o', m, ?_, hspelled.sib_isSome,
    hspelled.disp_length, ?_, haccesses', ?_⟩
  · rw [htook.rest_eq, List.append_assoc _ _ t'.rest]
  · rw [hplaces.operands_eq, hfilter]
    exact List.filter_cons_of_pos (by simp [Operand.memory?, haccesses'.kind_eq])
  · obtain ⟨p, hp, htakes, hbodyDisp⟩ := hspelled.disp_of_hasAddress hf haddress
    rw [hbodyDisp, hspelled.displacementBytes_of_hasAddress hf haddress,
      honly p.slot (hspelled.slot_mem hp) htakes, hdisp]

/-- With the memory form, a row of EVEX has one slot that takes the address, and forming its operand
never fails. The instruction then has one memory operand. It is one element, broadcast to the width
of the slot, if the broadcast bit is set, and the whole slot otherwise; a displacement of one byte
counts such accesses, and the record repeats the displacement. -/
theorem decodeOne_evex_memory {e : Engine} {bytes : List UInt8} {offset : Nat} (address : UInt64)
    (he : e.architecture = .x86)
    (hframe : readFrame e.mode.width (Tape.ofOffset bytes offset) = .ok f t)
    (hevex : f.isEvex = true) (haddress : f.hasAddress = true) :
    ∃ slot, f.row.slots.filter (·.source.takesAddress) = [slot] ∧
      (∀ x, ∃ value, memoryOperand f x (slot.size.bits f) slot.access = .ok value) ∧
      ∀ i next, e.decodeOne bytes offset address = .ok (i, next) →
        ∃ sib disp behind o m, t.rest = Option.toList sib ++ disp ++ behind ∧
          sib.isSome = f.hasSib ∧ disp.length = f.dispLength sib ∧
          i.operands.filter (·.memory?.isSome) = [o] ∧ f.Accesses slot disp o m ∧
          ∀ d, i.detail = .x86 d → d.disp = m.disp := by
  obtain ⟨-, hf⟩ := readFrame_chosen hframe
  obtain ⟨hallows, -⟩ := readFrame_allows hframe
  obtain ⟨slot, honly⟩ := List.length_eq_one_iff.mp (hf.addressSlots haddress)
  have hmem (s : Slot) : s = slot ↔ s ∈ f.row.slots ∧ s.source.takesAddress = true := by
    rw [← List.mem_singleton, ← honly, List.mem_filter]
  obtain ⟨hslot, htakes⟩ := (hmem slot).mp rfl
  refine ⟨slot, honly, exists_memoryOperand hf hallows hevex haddress hslot htakes, ?_⟩
  intro i next h
  obtain ⟨f', body, t', -, hparts, hi, -⟩ := parts_of_decodeOne he h
  obtain ⟨t₁, hframe', hbody⟩ := of_readParts hparts
  obtain ⟨rfl, rfl⟩ := EStateM.Result.ok.inj (hframe.symm.trans hframe')
  obtain ⟨body₁, hoperands, -, rfl⟩ := operands_of_readBody hbody
  obtain ⟨disp, behind, o, m, hbytes, hsib, hlen, hfilter, haccesses, hdisp⟩ :=
    accesses_of_readOperands hf hallows hevex haddress (fun s hs ht => (hmem s).mpr ⟨hs, ht⟩)
      hoperands
  rw [hi]
  refine ⟨body₁.sib, disp, behind, o, m, hbytes, hsib, hlen, hfilter, haccesses, ?_⟩
  intro d hd
  simp only [instructionOf] at hd
  split at hd
  · cases hd
    exact hdisp
  · cases hd

/-- `vaddps zmm1, zmm2, dword ptr [eax + 0x1fc]{1to16}`: the displacement byte `7F` counts elements. -/
theorem decodeOne_evex_memory_vaddps :
    ∃ (f : Frame) (t : Tape) (slot : Slot) (i : Instruction) (o : Operand) (m : MemoryRef),
      readFrame .w32 (Tape.ofOffset [0x62, 0xf1, 0x6c, 0x58, 0x58, 0x48, 0x7f] 0) = .ok f t ∧
      f.isEvex = true ∧ f.hasAddress = true ∧
      Engine.x86Of32.decodeOne [0x62, 0xf1, 0x6c, 0x58, 0x58, 0x48, 0x7f] 0 0x1000 = .ok (i, 7) ∧
      f.Accesses slot [0x7f] o m ∧ o.size = 32 ∧ o.broadcast = some .oneTo16 ∧
      m = { base := .x86 (.dword 0), disp := 0x1fc } := by
  have hread : EStateM.run' (do
        let f ← readFrame .w32
        let t ← get
        return decide (f.isEvex = true ∧ f.hasAddress = true ∧ f.hasSib = false ∧
          f.dispLength none = 1 ∧ t = ⟨0, 6, [0x7f]⟩))
      (Tape.ofOffset [0x62, 0xf1, 0x6c, 0x58, 0x58, 0x48, 0x7f] 0) = some true ∧
      (Engine.x86Of32.decodeOne [0x62, 0xf1, 0x6c, 0x58, 0x58, 0x48, 0x7f] 0 0x1000).map
        (fun d => ((d.1.operands.filter (·.memory?.isSome)).map
          fun o => (o.kind, o.size, o.broadcast), d.2)) =
        .ok ([(.memory { base := .x86 (.dword 0), disp := 0x1fc }, 32, some .oneTo16)], 7) := by
    decide +kernel
  obtain ⟨_, hrun⟩ := exists_of_run' hread.1
  obtain ⟨f, t, hframe, hrest⟩ := of_bind_ok hrun
  obtain ⟨_, _, hget, hpure⟩ := of_bind_ok hrest
  cases hget
  obtain ⟨hevex, haddress, hsib, hlength, rfl⟩ :=
    of_decide_eq_true (EStateM.Result.ok.inj hpure).1
  obtain ⟨i, next, hdecode, hshown⟩ := Engine.exists_of_map hread.2
  obtain ⟨hoperands, rfl⟩ := Prod.mk.inj hshown
  have hwidth : Engine.x86Of32.mode.width = .w32 := by decide
  obtain ⟨slot, -, -, hall⟩ := decodeOne_evex_memory (e := Engine.x86Of32) 0x1000 rfl
    (hwidth ▸ hframe) hevex haddress
  obtain ⟨sib, disp, behind, o, m, hbytes, hsome, hlen, hfilter, haccesses, -⟩ := hall i 7 hdecode
  -- without a SIB byte, the one byte that is left is the displacement
  obtain rfl : sib = none := by
    rw [hsib] at hsome
    exact Option.isNone_iff_eq_none.mp (Option.isSome_eq_false_iff.mp hsome)
  obtain rfl : [0x7f] = disp := by
    rw [hlength] at hlen
    obtain ⟨d, rfl⟩ := List.length_eq_one_iff.mp hlen
    exact congrArg (fun b => [b]) (List.cons.inj hbytes).1
  rw [hfilter, List.map_singleton, List.singleton_inj, Prod.mk.injEq, Prod.mk.injEq] at hoperands
  obtain ⟨hkind, hsize, hbroadcast⟩ := hoperands
  refine ⟨f, _, slot, i, o, m, hframe, hevex, haddress, hdecode, haccesses, hsize, hbroadcast, ?_⟩
  exact OperandKind.memory.inj (haccesses.kind_eq.symm.trans hkind)

end X86

end MachineCode
