import MachineCode.Proofs.Faults
import MachineCode.Proofs.X86.Layout

/-!
# The longest encodings

Behind its prefixes an encoding is at most fourteen bytes long. The bound is a
matter of the rows. Each stage has a widest form: an escape with its payload, an
opcode of three bytes, a SIB byte with four bytes of displacement, a field of
eight bytes. No row has the widest form of all of them, and the one that comes to
fourteen is a row of XOP with an immediate of four bytes.

So an encoding that is too long begins with two prefixes at least, and what a
failure reports of prefixes, and of bytes that are missing, is true of the bytes.
-/

namespace MachineCode

open Bytes (Tape Read)
open Bytes.Read

namespace X86

variable {f : Frame} {mode : Width} {address : UInt64} {body : Body} {t t₁ t₂ : Tape}

/-- The most bytes that the field of a slot has. -/
def Slot.fieldBound (slot : Slot) : Nat :=
  match slot.source with
  | .imm | .signedImm | .rel =>
    match slot.size with
    | .b8 => 1
    | .b16 => 2
    | .b32 | .z => 4
    | _ => 8
  | .vecImm => 1
  | .offset => 8
  | .farPointer => 6
  | _ => 0

/-- The most bytes that the fields of slots have together. -/
def fieldsBound : List Slot → Nat
  | [] => 0
  | slot :: slots => slot.fieldBound + fieldsBound slots

/-- The most bytes of an escape and an opcode. -/
def Encoding.leadBound : Encoding → Nat
  | .legacy => 3
  | .vex | .xop => 4
  | .evex => 5

/-- The most bytes of an encoding behind its prefixes. A ModRM byte brings at most a SIB byte and
four bytes of displacement. -/
def Row.lengthBound (r : Row) : Nat :=
  r.pattern.encoding.leadBound + (if r.needsModrm then 6 else 0) + fieldsBound r.slots

theorem lengthBound_table : ∀ r ∈ table, r.lengthBound ≤ 14 := by
  decide +kernel

theorem Slot.fieldLength_le {slot : Slot} (hregular : slot.regular = true) (f : Frame) :
    slot.fieldLength f ≤ slot.fieldBound := by
  obtain ⟨source, size, access⟩ := slot
  cases source with
  | imm | signedImm | rel =>
      have hsize : size ∈ [Size.b8, .b16, .b32, .v, .z] := of_decide_eq_true hregular
      simp only [List.mem_cons, List.not_mem_nil, or_false] at hsize
      simp only [fieldLength, fieldBound]
      rcases hsize with rfl | rfl | rfl | rfl | rfl <;> simp only [Size.bits]
      · decide
      · decide
      · decide
      · cases f.operandSize <;> decide
      · split <;> decide
  | offset =>
      simp only [fieldLength, fieldBound]
      cases f.addressSize <;> decide
  | farPointer =>
      simp only [fieldLength, fieldBound]
      split <;> decide
  | _ => exact Nat.le_refl _

theorem Escape.length_le {encoding : Encoding} {escape opcode : List UInt8}
    (hescape : encoding.Escapes escape) (hopcode : opcode.length ≤ 3)
    (hone : encoding ≠ .legacy → opcode.length = 1) :
    escape.length + opcode.length ≤ encoding.leadBound := by
  cases encoding with
  | legacy =>
      obtain rfl : escape = [] := hescape
      rw [List.length_nil, Nat.zero_add]
      exact hopcode
  | vex =>
      rw [hone (by decide)]
      rcases hescape with ⟨x, rfl⟩ | ⟨x, y, rfl⟩
      · exact Nat.le_succ 3
      · exact Nat.le_refl 4
  | xop =>
      obtain ⟨x, y, rfl⟩ := hescape
      rw [hone (by decide)]
      exact Nat.le_refl 4
  | evex =>
      obtain ⟨x, y, z, rfl⟩ := hescape
      rw [hone (by decide)]
      exact Nat.le_refl 5

/-- Behind an escape the opcode is one byte, since the payload has named the map. -/
theorem readOpcode_length {h : Head} {o : Opcode} (hencoding : h.encoding ≠ .legacy)
    (hrun : readOpcode h t = .ok o t₁) : o.bytes.length = 1 := by
  obtain ⟨b, t₂, -, hrest⟩ := of_bind_ok hrun
  rw [if_pos hencoding] at hrest
  cases hrest
  rfl

theorem readFrame_opcode_length (hrun : readFrame mode t = .ok f t₁)
    (hencoding : f.head.encoding ≠ .legacy) : f.opcode.bytes.length = 1 := by
  obtain ⟨t₂, t₃, -, hopcode, -⟩ := of_readFrame hrun
  exact readOpcode_length hencoding hopcode

/-- The ModRM byte, the SIB byte and the displacement. -/
theorem Frame.Chosen.address_length_le (hf : f.Chosen) {sib : Option UInt8} {disp : List UInt8}
    (hsib : sib.isSome = f.hasSib) (hdisp : disp.length = f.dispLength sib) :
    f.modrm.toList.length + sib.toList.length + disp.length ≤
      if f.row.needsModrm then 6 else 0 := by
  have hmodrm := hf.modrm_isSome
  have hone : sib.toList.length ≤ 1 := by
    cases sib with
    | none => exact Nat.zero_le 1
    | some b => exact Nat.le_refl 1
  cases hneeds : f.row.needsModrm with
  | true =>
      obtain ⟨m, hm⟩ := Option.isSome_iff_exists.mp (hmodrm.trans hneeds)
      have hfour : disp.length ≤ 4 := by
        rw [hdisp, Frame.dispLength]
        split
        · exact displacementLength_le _ _ _ _
        · exact Nat.zero_le 4
      rw [hm]
      show 1 + sib.toList.length + disp.length ≤ 6
      omega
  | false =>
      have haddress := hf.hasAddress_of_not_needsModrm hneeds
      have hnone : f.hasSib = false := by
        rw [Frame.hasSib, haddress]
        rfl
      rw [hnone, Option.isSome_eq_false_iff, Option.isNone_iff_eq_none] at hsib
      rw [Frame.dispLength, haddress] at hdisp
      rw [hneeds, Option.isSome_eq_false_iff, Option.isNone_iff_eq_none] at hmodrm
      rw [hmodrm, hsib, hdisp]
      exact Nat.le_refl 0

theorem length_fields_le {parts : List Part}
    (hparts : ∀ p ∈ parts, p.field.length ≤ p.slot.fieldBound) :
    (parts.flatMap Part.field).length ≤ fieldsBound (parts.map Part.slot) := by
  induction parts with
  | nil => exact Nat.le_refl 0
  | cons p parts ih =>
      have hrest := ih fun x hx => hparts x (List.mem_cons_of_mem p hx)
      have hfirst := hparts p List.mem_cons_self
      rw [List.flatMap_cons, List.length_append, List.map_cons, fieldsBound]
      exact Nat.add_le_add hfirst hrest

/-- Whether a tape begins with these bytes, and they are a whole encoding: a frame and its operands,
however long. -/
def Encodes (mode : Width) (address : UInt64) (t : Tape) (taken : List UInt8) : Prop :=
  ∃ f t₁ body t₂, readFrame mode t = .ok f t₁ ∧ readOperands f address t₁ = .ok body t₂ ∧
    t.Took t₂ taken

/-- Behind the run of prefix bytes, an encoding has at most fourteen bytes. -/
theorem encodes_of_readOperands (hframe : readFrame mode t = .ok f t₁)
    (hoperands : readOperands f address t₁ = .ok body t₂) :
    ∃ taken, Encodes mode address t taken ∧ t₂.used = t.used + taken.length ∧
      taken.length ≤ f.head.prefixes.count + 14 := by
  obtain ⟨prefixes, escape, htook, -, hspelled, -, hopcode, hf⟩ := readFrame_took hframe
  obtain ⟨a, _, disp, parts, -, htook', hspells⟩ :=
    readOperands_took hf.regular.slots (fun _ _ _ => hf.regular.rel_last) hoperands
  have htaken := htook.trans htook'
  refine ⟨_, ⟨f, t₁, body, t₂, hframe, hoperands, htaken⟩, htaken.used_eq, ?_⟩
  have hbody := hspells.spelled
  obtain ⟨hmem, hencoding, -⟩ := mem_candidates.mp hf.mem
  have hbound := lengthBound_table f.row hmem
  have hlead := Escape.length_le hspelled.escapes hopcode (readFrame_opcode_length hframe)
  have haddress := hf.address_length_le hbody.sib_isSome hbody.disp_length
  have hfields : (parts.flatMap Part.field).length ≤ fieldsBound f.row.slots := by
    rw [← hbody.slots_eq]
    refine length_fields_le fun p hp => ?_
    rw [(hbody.yields p hp).field_length]
    exact Slot.fieldLength_le (hf.regular.slots _ (hbody.slot_mem hp)) f
  have hcount : f.head.prefixes.count = prefixes.length := hspelled.count_eq.trans (Nat.zero_add _)
  rw [Row.lengthBound, hencoding] at hbound
  simp only [List.length_append]
  omega

/-- An instruction that is too long begins with two prefixes, and then it has fifteen of them or more
than fifteen bytes. -/
theorem Overlong.two_le {count : Nat} (h : Overlong mode address t count) (hstart : t.used = 0) :
    2 ≤ count ∧ (count = 15 ∨ ∃ taken, Encodes mode address t taken ∧ 15 < taken.length) := by
  cases h with
  | run => exact ⟨by decide, .inl rfl⟩
  | encoding hframe hoperands hlong =>
      obtain ⟨taken, hencodes, hused, hle⟩ := encodes_of_readOperands hframe hoperands
      rw [hused, hstart, Nat.zero_add] at hlong
      have hmore : 15 < taken.length := hlong
      exact ⟨by omega, .inr ⟨taken, hencodes, hmore⟩⟩

end X86

namespace Engine

variable {e : Engine} {bytes : List UInt8} {offset : Nat} {address : UInt64} {err : DecodeError}

/-- What a failure reports is true. A shortage asks for one to eight bytes and has found fewer, all
of them at the offset or behind it. Too many prefixes are reported for x86 alone, with the number of
prefix bytes that the instruction begins with, as far as the scan goes: that is fifteen, or at least
two and the whole encoding is longer than fifteen bytes. With fewer than two prefix bytes no
instruction has too many. -/
theorem decodeOne_error_truthful (h : e.decodeOne bytes offset address = .error err) :
    (∀ needed available,
      err.fault = .underrun needed available ∨ err.fault = .truncatedOperand needed available →
      available < needed ∧ needed ≤ 8 ∧ available ≤ bytes.length - offset) ∧
    (∀ count, err.fault = .excessivePrefixes count →
      e.architecture = .x86 ∧ 2 ≤ count ∧ count ≤ 15 ∧
      count = min 15 (X86.prefixRun e.mode.width (bytes.drop offset)).length ∧
      (count = 15 ∨ ∃ taken,
        X86.Encodes e.mode.width address (Tape.ofOffset bytes offset) taken ∧
        15 < taken.length)) ∧
    ((X86.prefixRun e.mode.width (bytes.drop offset)).length < 2 →
      ∀ count, err.fault ≠ .excessivePrefixes count) := by
  rcases fault_cases h with htrue | ⟨he, count, hfault, hlong⟩
  · -- prefixes are not what was reported
    have hnot (count : Nat) : err.fault ≠ .excessivePrefixes count := by
      intro hfault
      rw [hfault] at htrue
      exact htrue
    refine ⟨?_, fun count hfault => absurd hfault (hnot count), fun _ => hnot⟩
    rintro needed available (hfault | hfault) <;> rw [hfault] at htrue <;> exact htrue
  · have hcount : count = min 15 (X86.prefixRun e.mode.width (bytes.drop offset)).length :=
      hlong.count_eq
    obtain ⟨htwo, hreason⟩ := hlong.two_le rfl
    refine ⟨?_, ?_, ?_⟩
    · rintro needed available (hshort | hshort) <;> rw [hfault] at hshort <;> cases hshort
    · intro count' hfault'
      obtain rfl : count = count' := by
        rw [hfault] at hfault'
        exact Fault.excessivePrefixes.inj hfault'
      exact ⟨he, htwo, by omega, hcount, hreason⟩
    · intro hfew
      omega

/-- `bextr eax, dword ptr [eax + ecx*8 + disp32], imm32` has fourteen bytes behind its two segment
prefixes, so it is refused for two prefixes. -/
theorem decodeOne_error_truthful_bextr :
    x86Of64.decodeOne
        [0x26, 0x26, 0x8f, 0xea, 0x78, 0x10, 0x84, 0xc8, 1, 2, 3, 4, 5, 6, 7, 8] 0 0 =
      .error ⟨0, .excessivePrefixes 2⟩ ∧
    ∃ taken, X86.Encodes .w64 0 (Tape.ofOffset
        [0x26, 0x26, 0x8f, 0xea, 0x78, 0x10, 0x84, 0xc8, 1, 2, 3, 4, 5, 6, 7, 8] 0) taken ∧
      15 < taken.length := by
  have h : x86Of64.decodeOne
      [0x26, 0x26, 0x8f, 0xea, 0x78, 0x10, 0x84, 0xc8, 1, 2, 3, 4, 5, 6, 7, 8] 0 0 =
        .error ⟨0, .excessivePrefixes 2⟩ := by
    decide +kernel
  obtain ⟨-, hexcessive, -⟩ := decodeOne_error_truthful h
  obtain ⟨-, -, -, -, hreason⟩ := hexcessive 2 rfl
  exact ⟨h, hreason.resolve_left (by decide)⟩

end Engine

end MachineCode
