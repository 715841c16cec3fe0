import MachineCode.Engine
import MachineCode.Proofs.X86.Body
import MachineCode.Proofs.X86.Frame

/-!
# The stages of a decode settle

Frame and body of an x86 instruction settle one after the other, and a MIPS
instruction is a word of four bytes. Either record spells the bytes that were
taken, their number and the address, and their number lies within the bounds of
the architecture.
-/

namespace MachineCode

open Bytes Read

/-- A record that gives its address, its bytes and their number. -/
structure Instruction.Spells (i : Instruction) (address : UInt64) (bytes : List UInt8) : Prop where
  address_eq : i.address = address
  bytes_eq : i.bytes = bytes
  length_eq : i.length.toNat = bytes.length

namespace X86

theorem readParts_sequential (mode : Width) (address : UInt64) :
    (readParts mode address).Sequential := by
  refine (readFrame_sequential mode).bind fun frame => ?_
  exact (readBody_sequential frame address).bind fun body => .pure _

theorem readParts_operandsLast (mode : Width) (address : UInt64) (u : Nat) (bs : List UInt8) :
    (readParts mode address).OperandsLast u bs := by
  refine .bind_of_not_underrun (readFrame_sequential mode u bs) (readFrame_operandsLast mode u bs)
    fun frame => ?_
  exact (readBody_faults frame address).bind fun body => .pure _

/-- The stages of an instruction. -/
theorem of_readParts {mode : Width} {address : UInt64} {f : Frame} {body : Body} {t t' : Tape}
    (hrun : readParts mode address t = .ok (f, body) t') :
    ∃ t₁, readFrame mode t = .ok f t₁ ∧ readBody f address t₁ = .ok body t' := by
  obtain ⟨f', t₁, hframe, hrest⟩ := of_bind_ok hrun
  obtain ⟨body', t₂, hbody, hpure⟩ := of_bind_ok hrest
  cases hpure
  exact ⟨t₁, hframe, hbody⟩

theorem readParts_takes {mode : Width} {address : UInt64} {taken : List UInt8}
    {parts : Frame × Body} (ht : (readParts mode address).Takes 0 taken parts) :
    1 ≤ taken.length ∧ taken.length ≤ maxLength := by
  have hrun := ht.run 0
  constructor
  · cases taken with
    | nil => cases hrun
    | cons b bs => exact Nat.le_add_left 1 bs.length
  · obtain ⟨t₁, -, hbody⟩ := of_readParts hrun
    have hle : 0 + taken.length ≤ maxLength := readBody_used_le hbody
    omega

theorem decode_sequential (mode : Width) (detail : Bool) (address : UInt64) :
    (decode mode detail address).Sequential :=
  (readParts_sequential mode address).withBytes.bind fun _ => .pure _

theorem decode_operandsLast (mode : Width) (detail : Bool) (address : UInt64) (u : Nat)
    (bs : List UInt8) : (decode mode detail address).OperandsLast u bs :=
  .bind_of_not_underrun ((readParts_sequential mode address).withBytes u bs)
    (readParts_operandsLast mode address u bs).withBytes fun _ => .pure _

theorem instructionOf_spells (f : Frame) (body : Body) {bytes : List UInt8} (address : UInt64)
    (detail : Bool) (hlen : bytes.length ≤ maxLength) :
    (instructionOf f body bytes address detail).Spells address bytes where
  address_eq := rfl
  bytes_eq := rfl
  length_eq := by
    rw [maxLength] at hlen
    show (UInt16.ofNat bytes.length).toNat = bytes.length
    rw [UInt16.toNat_ofNat']
    omega

theorem parts_of_decode {mode : Width} {detail : Bool} {address : UInt64} {taken : List UInt8}
    {i : Instruction} (ht : (decode mode detail address).Takes 0 taken i) :
    ∃ frame body, (readParts mode address).Takes 0 taken (frame, body) ∧
      i = instructionOf frame body taken address detail := by
  have hparts := readParts_sequential mode address
  obtain ⟨⟨⟨frame, body⟩, bytes⟩, hbytes, rfl⟩ := ht.of_map (hparts.withBytes 0 taken)
  obtain ⟨ht', rfl⟩ := hbytes.of_withBytes (hparts 0 taken)
  exact ⟨frame, body, ht', rfl⟩

theorem decode_takes {mode : Width} {detail : Bool} {address : UInt64} {taken : List UInt8}
    {i : Instruction} (ht : (decode mode detail address).Takes 0 taken i) :
    i.Spells address taken ∧ 1 ≤ taken.length ∧ taken.length ≤ maxLength := by
  obtain ⟨frame, body, ht', rfl⟩ := parts_of_decode ht
  obtain ⟨hpos, hle⟩ := readParts_takes ht'
  exact ⟨instructionOf_spells frame body address detail hle, hpos, hle⟩

end X86

namespace Mips

theorem readWord_sequential (v : Variant) : (readWord v).Sequential :=
  (Sequential.bytes wordLength).bind fun _ => .pure _

theorem readWord_used {v : Variant} {t t' : Tape} {w : Word}
    (hrun : readWord v t = .ok w t') : t'.used = t.used + wordLength := by
  obtain ⟨bytes, t₁, hb, hpure⟩ := of_bind_ok hrun
  cases hpure
  exact bytes_used hb

theorem badSlot_sequential {α : Type} : (badSlot : Read α).Sequential :=
  fun _ _ => .inr ⟨.unknownOpcode, fun _ _ _ => ⟨⟨0, .unknownOpcode⟩, _, rfl, rfl⟩⟩

theorem readParts_sequential (v : Variant) (address : UInt64) :
    (readParts v address).Sequential := by
  refine (readWord_sequential v).bind fun w => ?_
  split
  · exact .fail _
  · split
    · exact badSlot_sequential
    · exact .pure _

/-- A word has no operands apart from it. -/
theorem readParts_faults (v : Variant) (address : UInt64) :
    (readParts v address).Faults (·.isTruncated = false) := by
  refine Faults.bind ?_ fun w => ?_
  · exact (Faults.bytes wordLength).bind fun _ => .pure _
  · split
    · exact .fail rfl
    · split
      · intro t e t' hrun
        cases hrun
        rfl
      · exact .pure _

theorem readParts_takes {v : Variant} {address : UInt64} {u : Nat} {taken : List UInt8}
    {parts : Word × Row × List Operand} (ht : (readParts v address).Takes u taken parts) :
    taken.length = wordLength := by
  obtain ⟨w, t, hw, hrun⟩ := of_bind_ok (ht.run 0)
  have hused := readWord_used hw
  cases hrow : v.row? w with
  | none =>
      simp only [hrow] at hrun
      cases hrun
  | some row =>
      cases hops : v.operands? address w row with
      | none =>
          simp only [hrow, hops] at hrun
          cases hrun
      | some operands =>
          simp only [hrow, hops] at hrun
          cases hrun
          exact Nat.add_left_cancel hused

theorem decode_sequential (v : Variant) (detail : Bool) (address : UInt64) :
    (decode v detail address).Sequential :=
  (readParts_sequential v address).withBytes.bind fun _ => .pure _

theorem decode_faults (v : Variant) (detail : Bool) (address : UInt64) :
    (decode v detail address).Faults (·.isTruncated = false) :=
  (readParts_faults v address).withBytes.bind fun _ => .pure _

theorem instructionOf_spells (w : Word) (row : Row) (operands : List Operand)
    {bytes : List UInt8} (address : UInt64) (detail : Bool) (hlen : bytes.length = wordLength) :
    (instructionOf w row operands bytes address detail).Spells address bytes where
  address_eq := rfl
  bytes_eq := rfl
  length_eq := by
    show (UInt16.ofNat bytes.length).toNat = bytes.length
    rw [hlen]
    rfl

theorem decode_takes {v : Variant} {detail : Bool} {address : UInt64} {taken : List UInt8}
    {i : Instruction} (ht : (decode v detail address).Takes 0 taken i) :
    i.Spells address taken ∧ taken.length = wordLength := by
  have hparts := readParts_sequential v address
  obtain ⟨⟨⟨w, row, operands⟩, bytes⟩, hbytes, rfl⟩ := ht.of_map (hparts.withBytes 0 taken)
  obtain ⟨ht', rfl⟩ := hbytes.of_withBytes (hparts 0 taken)
  have hlen := readParts_takes ht'
  exact ⟨instructionOf_spells w row operands address detail hlen, hlen⟩

end Mips

namespace Engine

theorem stages_x86 {e : Engine} (he : e.architecture = .x86) (address : UInt64) :
    e.stages address =
      (Read.atLeast e.architecture.minLength >>= fun _ =>
        X86.decode e.mode.width e.options.detail address) := by
  rw [stages, he]

theorem stages_mips {e : Engine} (he : e.architecture = .mips) (address : UInt64) :
    e.stages address =
      (Read.atLeast e.architecture.minLength >>= fun _ =>
        Mips.decode (.ofMode e.mode) e.options.detail address) := by
  rw [stages, he]

theorem stages_settles (e : Engine) (address : UInt64) (bytes : List UInt8) :
    (e.stages address).Settles 0 bytes := by
  cases he : e.architecture with
  | x86 =>
      rw [stages_x86 he]
      refine (X86.decode_sequential _ _ address 0 bytes).atLeast fun taken i ht => ?_
      rw [he]
      exact (X86.decode_takes ht).2.1
  | mips =>
      rw [stages_mips he]
      refine (Mips.decode_sequential _ _ address 0 bytes).atLeast fun taken i ht => ?_
      rw [he, (Mips.decode_takes ht).2]
      exact Nat.le_refl 4

theorem stages_operandsLast (e : Engine) (address : UInt64) (bytes : List UInt8) :
    (e.stages address).OperandsLast 0 bytes := by
  cases he : e.architecture with
  | x86 =>
      rw [stages_x86 he]
      exact (X86.decode_operandsLast _ _ address 0 bytes).atLeast
  | mips =>
      rw [stages_mips he]
      exact (OperandsLast.of_faults (Mips.decode_faults _ _ address)).atLeast

/-- An instruction that was decoded spells what was taken, and its length is one that the
architecture allows. -/
theorem stages_takes {e : Engine} {address : UInt64} {taken : List UInt8} {i : Instruction}
    (ht : (e.stages address).Takes 0 taken i) :
    i.Spells address taken ∧ e.architecture.minLength ≤ taken.length ∧
      taken.length ≤ e.architecture.maxLength := by
  cases he : e.architecture with
  | x86 =>
      rw [stages_x86 he] at ht
      exact X86.decode_takes (ht.of_atLeast (X86.decode_sequential _ _ address 0 taken))
  | mips =>
      rw [stages_mips he] at ht
      obtain ⟨hspells, hlen⟩ :=
        Mips.decode_takes (ht.of_atLeast (Mips.decode_sequential _ _ address 0 taken))
      rw [hlen]
      exact ⟨hspells, Nat.le_refl 4, Nat.le_refl 4⟩

/-- MIPS instructions are not cut inside an operand. -/
theorem stages_faults_mips {e : Engine} (he : e.architecture = .mips) (address : UInt64) :
    (e.stages address).Faults (·.isTruncated = false) := by
  rw [stages_mips he]
  refine Faults.bind ?_ fun _ => Mips.decode_faults _ _ address
  intro t err t' hrun
  simp only [Read.atLeast] at hrun
  split at hrun
  · cases hrun; rfl
  · cases hrun

end Engine

end MachineCode
