import MachineCode.Proofs.X86.Relocation
import MachineCode.Proofs.X86.Slots

/-!
# Branch targets

A branch displacement counts from the end of the instruction, but the decoder
adds it to what it has read so far. That is the end because the displacement is
the last field of its row: the displacement is the only slot there, and behind
the slots nothing is read.

What is left is arithmetic. The sum wraps at 64 bits before it is cut to the
width of the target, which divides 64, so it may as well be taken over the
integers and cut once.
-/

namespace MachineCode

namespace X86

open Bytes Read

variable {f : Frame} {slot : Slot} {address : UInt64} {t t' : Tape}

/-- What a branch slot reads: a displacement that ends the instruction, and of which the only
operand is the target. -/
structure Frame.EndsInTarget (f : Frame) (slot : Slot) (i : Instruction) (field : List UInt8)
    (value : Int64) : Prop where
  field_suffix : field <:+ i.bytes
  field_length : 8 * field.length = (slot.size.bits f).toNat
  length_mem : field.length ∈ [1, 2, 4]
  kinds_eq : i.operands.map Operand.kind = [.immediate value]
  /-- The target is so far from the end of the instruction as the displacement says. -/
  value_eq : (value.toUInt64.toNat : Int) =
    (i.endAddress.toNat + signedValue (8 * field.length) (littleEndian field)) % 2 ^ f.targetBits

theorem Frame.EndsInTarget.value_lt {i : Instruction} {field : List UInt8} {value : Int64}
    (h : f.EndsInTarget slot i field value) : value.toUInt64.toNat < 2 ^ f.targetBits := by
  have hpos : (0 : Int) < 2 ^ f.targetBits := Int.pow_pos (by decide)
  have hlt := Int.emod_lt_of_pos
    (i.endAddress.toNat + signedValue (8 * field.length) (littleEndian field)) hpos
  rw [← h.value_eq] at hlt
  exact_mod_cast hlt

theorem Row.Regular.slots_of_rel {r : Row} (hr : r.Regular) (hslot : slot ∈ r.slots)
    (hrel : slot.source = .rel) : r.slots = [slot] := by
  have hlen := hr.rel (List.any_eq_true.mpr ⟨slot, hslot, decide_eq_true hrel⟩)
  obtain ⟨only, honly⟩ := List.length_eq_one_iff.mp hlen
  rw [honly, List.mem_singleton] at hslot
  rw [honly, hslot]

/-- Branch displacements have one byte, or as many as an operand has at most four of. -/
def Slot.sizesTarget (slot : Slot) : Bool :=
  decide (slot.source ≠ .rel ∨ slot.size ∈ [Size.b8, .z])

theorem sizesTarget_table : ∀ r ∈ table, ∀ slot ∈ r.slots, slot.sizesTarget = true := by
  decide +kernel

theorem bits_of_target {size : Size} (hsize : size ∈ [Size.b8, .z]) (f : Frame) :
    (size.bits f).toNat ∈ [8, 16, 32] := by
  simp only [List.mem_cons, List.not_mem_nil, or_false] at hsize
  rcases hsize with rfl | rfl <;> rw [Size.bits]
  · decide
  · split <;> decide

theorem endsInTarget_of_readBody {body : Body} {i : Instruction} {n : Nat} (hf : f.Chosen)
    (hslot : slot ∈ f.row.slots) (hrel : slot.source = .rel)
    (hrun : readBody f address t = .ok body ⟨0, n, []⟩) (hsuffix : t.rest <:+ i.bytes)
    (hoperands : i.operands = body.operands) (hend : address + UInt64.ofNat n = i.endAddress) :
    ∃ field value, f.EndsInTarget slot i field value := by
  obtain ⟨disp, parts, htook, hbody⟩ := readBody_took hf.regular.slots
    (fun before slot after hsplit hs => hf.regular.rel_last hsplit hs) hrun
  -- the one part is that of the displacement
  obtain ⟨p, rfl⟩ : ∃ p, parts = [p] := by
    rw [← List.length_eq_one_iff, ← List.length_map Part.slot, hbody.slots_eq,
      hf.regular.slots_of_rel hslot hrel]
    rfl
  obtain rfl : p.slot = slot := by
    have heq := hbody.slots_eq
    rw [hf.regular.slots_of_rel hslot hrel] at heq
    exact List.singleton_inj.mp heq
  have hyields := hbody.yields p List.mem_cons_self
  have hkinds : i.operands.map Operand.kind = p.kinds := by
    rw [hoperands, hbody.kinds_eq, List.flatMap_singleton]
  have hmeans : p.kinds = [.immediate (branchTarget f address n (signed64 p.field)).toInt64] := by
    have hm := hyields.means
    rw [Slot.Means, hrel] at hm
    exact hm
  have hbits : 8 * p.field.length = (p.slot.size.bits f).toNat ∧ p.field.length ∈ [1, 2, 4] := by
    have hsize := of_decide_eq_true
      (sizesTarget_table f.row (mem_candidates.mp hf.mem).1 p.slot hslot)
    have hmem := bits_of_target (hsize.resolve_left (not_not_intro hrel)) f
    have hlen := hyields.field_length
    rw [Slot.fieldLength, hrel] at hlen
    dsimp only at hlen
    simp only [List.mem_cons, List.not_mem_nil, or_false] at hmem ⊢
    omega
  refine ⟨p.field, _, ?_, hbits.1, hbits.2, hkinds.trans hmeans, ?_⟩
  · refine List.IsSuffix.trans ?_ hsuffix
    rw [htook.rest_eq, List.append_nil, List.flatMap_singleton]
    exact List.suffix_append _ _
  · rw [branchTarget_eq, hend]
    exact toNat_lowAddress_add f.targetBits_le _ _

/-- The slots of a frame that is read, by evaluation. -/
theorem exists_frame {mode : Width} {bytes : List UInt8} {slots : List Slot}
    (h : (match readFrame mode { rest := bytes } with
      | .ok f _ => some f.row.slots
      | .error _ _ => none) = some slots) :
    ∃ f t, readFrame mode { rest := bytes } = .ok f t ∧ f.row.slots = slots := by
  split at h
  · next f t hframe => exact ⟨f, t, hframe, Option.some.inj h⟩
  · cases h

/-- A frame and a body that a decode read, and what its branch slot read. -/
theorem target_of_decodeOne {e : Engine} {bytes : List UInt8} {offset next : Nat}
    {i : Instruction} (he : e.architecture = .x86)
    (h : e.decodeOne bytes offset address = .ok (i, next)) :
    ∃ f body t, readFrame e.mode.width { rest := i.bytes } = .ok f t ∧
      readBody f address t = .ok body ⟨0, i.length.toNat, []⟩ ∧
      i = instructionOf f body i.bytes address e.options.detail ∧
      ∀ slot ∈ f.row.slots, slot.source = .rel →
        ∃ field value, f.EndsInTarget slot i field value := by
  obtain ⟨f, body, t, hframe, hbody, hi⟩ := body_of_decodeOne he h
  obtain ⟨prefixes, escape, htook, -, -, -, -, hf⟩ := readFrame_took hframe
  refine ⟨f, body, t, hframe, hbody, hi, fun slot hslot hrel => ?_⟩
  refine endsInTarget_of_readBody hf hslot hrel hbody ?_ (by rw [hi]; rfl) ?_
  · have hrest := htook.rest_eq
    dsimp only at hrest
    rw [hrest]
    exact List.suffix_append _ _
  · rw [UInt64.ofNat_uInt16ToNat, Instruction.endAddress, hi]
    rfl

/-- A branch displacement takes the last one, two or four bytes of the instruction, and the target
is counted from the end of the instruction: its address and the displacement, which has a sign, add
up to the target modulo the width that the operand size and the mode give to targets. -/
theorem decodeOne_branch_target {e : Engine} {bytes : List UInt8} {offset next : Nat}
    {i : Instruction} (he : e.architecture = .x86)
    (h : e.decodeOne bytes offset address = .ok (i, next)) :
    ∃ f, (∃ t, readFrame e.mode.width { rest := i.bytes } = .ok f t) ∧
      f.head.mode = e.mode.width ∧
      ∀ slot ∈ f.row.slots, slot.source = .rel →
        ∃ field value, f.EndsInTarget slot i field value := by
  obtain ⟨f, body, t, hframe, -, -, htarget⟩ := target_of_decodeOne he h
  obtain ⟨-, -, -, hmode, -⟩ := readFrame_took hframe
  exact ⟨f, ⟨t, hframe⟩, hmode, htarget⟩

/-- `je 0xff95` with prefix `66`: 128 bytes back from the end, modulo 2¹⁶. -/
theorem decodeOne_branch_target_je :
    ∃ (i : Instruction) (f : Frame) (slot : Slot) (field : List UInt8),
      Engine.x86Of32.decodeOne [0x66, 0x0f, 0x84, 0x80, 0xff] 0 0x12340010 = .ok (i, 5) ∧
      f.EndsInTarget slot i field 0xff95 := by
  have hread : (Engine.x86Of32.decodeOne [0x66, 0x0f, 0x84, 0x80, 0xff] 0 0x12340010).map
      (fun d => ((d.1.bytes, d.1.operands.map Operand.kind), d.2)) =
        .ok (([0x66, 0x0f, 0x84, 0x80, 0xff], [.immediate 0xff95]), 5) ∧
      (match readFrame .w32 { rest := [0x66, 0x0f, 0x84, 0x80, 0xff] } with
        | .ok f _ => some f.row.slots
        | .error _ _ => none) = some [.rd .rel .z] := by
    decide +kernel
  obtain ⟨i, next, hrun, hshown⟩ := Engine.exists_of_map hread.1
  simp only [Prod.mk.injEq] at hshown
  obtain ⟨⟨hbytes, hkinds⟩, rfl⟩ := hshown
  obtain ⟨f, ⟨t, hframe⟩, -, htarget⟩ := decodeOne_branch_target rfl hrun
  have hslots : f.row.slots = [.rd .rel .z] := by
    have hwidth : Engine.x86Of32.mode.width = .w32 := by decide
    obtain ⟨f', t', hframe', hslots⟩ : ∃ f t, readFrame .w32
        { rest := [0x66, 0x0f, 0x84, 0x80, 0xff] } = .ok f t ∧ f.row.slots = [.rd .rel .z] :=
      exists_frame hread.2
    rw [hbytes, hwidth, hframe'] at hframe
    cases hframe
    exact hslots
  obtain ⟨field, value, hends⟩ := htarget (.rd .rel .z) (by rw [hslots]; simp) rfl
  obtain rfl : value = 0xff95 := by
    have heq := hends.kinds_eq.symm.trans hkinds
    simpa using heq
  exact ⟨i, f, _, field, hrun, hends⟩

end X86

end MachineCode
