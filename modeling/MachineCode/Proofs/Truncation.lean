import MachineCode.Proofs.SingleDecode
import Mathlib.Control.Monad.Basic
import Mathlib.Data.Nat.Find

/-!
# Cut and extended buffers

Three laws say what a caller who holds only part of the input may rely on. A
success stands for its own bytes: the same bytes in another buffer, at another
offset and with other neighbours, decode to the same record. A success that is
cut short is reported as a shortage, first before the operands and from some cut
on inside them. And a refusal that is no shortage stands whatever is appended.
-/

namespace MachineCode

open Bytes Read

namespace Engine

variable {e : Engine} {address : UInt64} {i : Instruction}

theorem next_of_decodeOne {bytes : List UInt8} {offset next : Nat}
    (h : e.decodeOne bytes offset address = .ok (i, next)) :
    next = offset + i.length.toNat := by
  obtain ⟨taken, rest, -, -, ht, rfl⟩ := takes_of_decodeOne h
  rw [(stages_takes ht).1.length_eq]

theorem exists_of_map {β : Type} {x : Except DecodeError (Instruction × Nat)}
    {g : Instruction × Nat → β} {b : β} (h : x.map g = .ok b) :
    ∃ i next, x = .ok (i, next) ∧ g (i, next) = b := by
  cases x with
  | error err => cases h
  | ok found =>
      cases h
      exact ⟨found.1, found.2, rfl, rfl⟩

theorem exists_of_next {x : Except DecodeError (Instruction × Nat)} {next : Nat}
    (h : x.map Prod.snd = .ok next) : ∃ i, x = .ok (i, next) := by
  obtain ⟨i, _, hx, rfl⟩ := exists_of_map h
  exact ⟨i, hx⟩

theorem minLength_pos (a : Architecture) : 1 ≤ a.minLength := by
  cases a <;> decide

/-- Success is self-delimiting and does not depend on the place: wherever another buffer holds
the bytes of the instruction, it decodes to the same record. -/
theorem decodeOne_self_delimiting {b b' : List UInt8} {p p' next : Nat}
    (h : e.decodeOne b p address = .ok (i, next))
    (hbytes : (b'.drop p').take i.length.toNat = (b.drop p).take i.length.toNat) :
    next = p + i.length.toNat ∧
      e.decodeOne b' p' address = .ok (i, p' + i.length.toNat) := by
  refine ⟨next_of_decodeOne h, ?_⟩
  obtain ⟨taken, rest, -, hrest, ht, -⟩ := takes_of_decodeOne h
  obtain ⟨hspells, hmin, -⟩ := stages_takes ht
  rw [hspells.length_eq, hrest, List.take_left] at hbytes
  have hsplit : b'.drop p' = taken ++ (b'.drop p').drop taken.length := by
    have hcat := List.take_append_drop taken.length (b'.drop p')
    rw [hbytes] at hcat
    exact hcat.symm
  have hp : p' ≤ b'.length := by
    have hlen := congrArg List.length hbytes
    rw [List.length_take, List.length_drop] at hlen
    have hpos := minLength_pos e.architecture
    omega
  rw [hspells.length_eq]
  exact decodeOne_of_takes hp hsplit ht

/-- The three bytes of `vzeroupper`, alone and behind what would be an operand-size prefix. -/
theorem decodeOne_vzeroupper_elsewhere :
    ∃ i, x86Of32.decodeOne [0xc5, 0xf8, 0x77] 0 0x1000 = .ok (i, 3) ∧
      x86Of32.decodeOne [0x66, 0xc5, 0xf8, 0x77, 0xff] 1 0x1000 = .ok (i, 4) := by
  obtain ⟨i, h⟩ : ∃ i, x86Of32.decodeOne [0xc5, 0xf8, 0x77] 0 0x1000 = .ok (i, 3) :=
    exists_of_next (by decide +kernel)
  have hlen : i.length.toNat = 3 := by
    have := next_of_decodeOne h
    omega
  have hbytes : (List.drop 1 [0x66, 0xc5, 0xf8, 0x77, 0xff]).take i.length.toNat =
      (List.drop 0 [(0xc5 : UInt8), 0xf8, 0x77]).take i.length.toNat := by
    rw [hlen]
    rfl
  obtain ⟨-, helse⟩ := decodeOne_self_delimiting h hbytes
  rw [hlen] at helse
  exact ⟨i, h, helse⟩

/-- A property that holds from some number on, below a bound, has a least such number. -/
theorem exists_threshold {P : Nat → Prop} (n : Nat)
    (hmono : ∀ j k, j ≤ k → k < n → P j → P k) : ∃ m ≤ n, ∀ k < n, P k ↔ m ≤ k := by
  classical
  by_cases hex : ∃ k, k < n ∧ P k
  · obtain ⟨hlt, hfound⟩ := Nat.find_spec hex
    refine ⟨Nat.find hex, Nat.le_of_lt hlt, fun k hk => ⟨fun hp => ?_, fun hle => ?_⟩⟩
    · exact Nat.find_min' hex ⟨hk, hp⟩
    · exact hmono _ k hle hk hfound
  · refine ⟨n, Nat.le_refl n, fun k hk => ⟨fun hp => ?_, fun hle => ?_⟩⟩
    · exact absurd ⟨k, hk, hp⟩ hex
    · exact absurd hk (Nat.not_lt.mpr hle)

/-- The bytes before a cut starve the stages inside an operand. -/
def CutInOperand (e : Engine) (address : UInt64) (taken : List UInt8) (k : Nat) : Prop :=
  ∃ fault, (e.stages address).Refuses 0 (taken.take k) fault ∧ fault.isTruncated = true

/-- Later cuts than one inside an operand are inside an operand. -/
theorem CutInOperand.mono {taken : List UInt8} {j k : Nat}
    (ht : (e.stages address).Takes 0 taken i) (hjk : j ≤ k) (hk : k < taken.length)
    (hj : e.CutInOperand address taken j) : e.CutInOperand address taken k := by
  obtain ⟨f, hf, htrunc⟩ := hj
  obtain ⟨f', hf', hshort⟩ := ht.cut (e.stages_settles address) hk
  refine ⟨f', hf', Fault.isTruncated_of_isShortage hshort ?_⟩
  obtain ⟨err, t, hrun, rfl⟩ := hf.run 0
  obtain ⟨err', t', hrun', rfl⟩ := hf'.run 0
  have hsplit : taken.take k = taken.take j ++ (taken.take k).drop j := by
    have hcat := List.take_append_drop j (taken.take k)
    rw [List.take_take, Nat.min_eq_left hjk] at hcat
    exact hcat.symm
  rw [hsplit] at hrun'
  exact e.stages_operandsLast address (taken.take j) _ _ _ hrun htrunc _ _ _ _ hrun'

theorem cutInOperand_iff {taken : List UInt8} {k : Nat} {fault : Fault}
    (hr : (e.stages address).Refuses 0 (taken.take k) fault) :
    e.CutInOperand address taken k ↔ fault.isTruncated = true := by
  constructor
  · rintro ⟨fault', hr', htrunc⟩
    rw [hr.unique hr']
    exact htrunc
  · exact fun htrunc => ⟨fault, hr, htrunc⟩

/-- What the stages refuse before a cut is what a buffer that ends there reports. -/
theorem decodeOne_take_of_refuses {b taken rest : List UInt8} {p k : Nat} {fault : Fault}
    (hp : p ≤ b.length) (hrest : b.drop p = taken ++ rest) (hk : k < taken.length)
    (hr : (e.stages address).Refuses 0 (taken.take k) fault) :
    e.decodeOne (b.take (p + k)) p address = .error ⟨p, fault⟩ := by
  have hcut : (b.take (p + k)).drop p = taken.take k := by
    rw [List.drop_take, Nat.add_sub_cancel_left, hrest,
      List.take_append_of_le_length (Nat.le_of_lt hk)]
  have hpcut : p ≤ (b.take (p + k)).length := by
    rw [List.length_take]
    omega
  refine decodeOne_of_refuses hpcut ?_
  rw [hcut]
  exact hr

/-- Every cut of an instruction is a shortage at its start. There is a number of bytes below which
the cut lies before the operands and from which on it lies inside them; for MIPS all cuts of the
four bytes lie before. -/
theorem decodeOne_cut {b : List UInt8} {p next : Nat}
    (h : e.decodeOne b p address = .ok (i, next)) :
    ∃ m ≤ i.length.toNat,
      (e.architecture = .mips → m = i.length.toNat ∧ i.length.toNat = 4) ∧
      ∀ k < i.length.toNat, ∃ needed available,
        e.decodeOne (b.take (p + k)) p address =
          .error ⟨p, if k < m then .underrun needed available
            else .truncatedOperand needed available⟩ := by
  obtain ⟨taken, rest, hp, hrest, ht, -⟩ := takes_of_decodeOne h
  obtain ⟨hspells, hmin, hmax⟩ := stages_takes ht
  rw [hspells.length_eq]
  obtain ⟨m, hm, hiff⟩ := exists_threshold taken.length
    (fun j k hjk hk hj => CutInOperand.mono ht hjk hk hj)
  refine ⟨m, hm, fun hmips => ?_, fun k hk => ?_⟩
  · rw [hmips] at hmin hmax
    have hlen : taken.length = 4 := Nat.le_antisymm hmax hmin
    refine ⟨?_, hlen⟩
    by_cases hlt : m < taken.length
    · -- a threshold below the length would be a cut inside an operand
      obtain ⟨fault, hr, htrunc⟩ := (hiff m hlt).mpr (Nat.le_refl m)
      obtain ⟨err, t, hrun, rfl⟩ := hr.run 0
      rw [stages_faults_mips hmips address _ _ _ hrun] at htrunc
      cases htrunc
    · omega
  · obtain ⟨fault, hr, hshort⟩ := ht.cut (e.stages_settles address) hk
    have hbefore : k < m ↔ fault.isTruncated = false := by
      rw [← Nat.not_le, ← hiff k hk, cutInOperand_iff hr, Bool.not_eq_true]
    obtain ⟨needed, available, rfl⟩ := Fault.eq_of_isShortage hshort hbefore
    exact ⟨needed, available, decodeOne_take_of_refuses hp hrest hk hr⟩

/-- The first byte of `les eax, [esp + 8]` could also begin a vector encoding, so that a cut behind
it lies before the operands. -/
theorem decodeOne_les_cut :
    ∃ i, x86Of32.decodeOne [0xc4, 0x44, 0x24, 0x08] 0 0 = .ok (i, 4) ∧
      ∃ m ≤ 4, ∀ k < 4, ∃ needed available,
        x86Of32.decodeOne ([0xc4, 0x44, 0x24, 0x08].take (0 + k)) 0 0 =
          .error ⟨0, if k < m then .underrun needed available
            else .truncatedOperand needed available⟩ := by
  obtain ⟨i, h⟩ : ∃ i, x86Of32.decodeOne [0xc4, 0x44, 0x24, 0x08] 0 0 = .ok (i, 4) :=
    exists_of_next (by decide +kernel)
  have hlen : i.length.toNat = 4 := by
    have := next_of_decodeOne h
    omega
  obtain ⟨m, hm, -, hcut⟩ := decodeOne_cut h
  rw [hlen] at hm hcut
  exact ⟨i, h, m, hm, hcut⟩

/-- A refusal that is no shortage is final: it stands for every longer buffer. -/
theorem decodeOne_append_of_final {b : List UInt8} {p : Nat} {err : DecodeError}
    (h : e.decodeOne b p address = .error err)
    (hfinal : err.fault = .unknownOpcode ∨ ∃ count, err.fault = .excessivePrefixes count)
    (x : List UInt8) : e.decodeOne (b ++ x) p address = .error err := by
  have hshort : err.fault.isShortage = false := by
    rcases hfinal with hf | ⟨count, hf⟩ <;> rw [hf] <;> rfl
  have hp : p ≤ b.length := by
    by_cases hout : b.length < p
    · rw [decodeOne, if_pos hout] at h
      cases h
      cases hshort
    · exact Nat.le_of_not_lt hout
  obtain ⟨hoffset, hr⟩ := refuses_of_decodeOne hp h
  have hpx : p ≤ (b ++ x).length := by
    rw [List.length_append]
    omega
  have hr' := hr.append hshort x
  rw [← List.drop_append_of_le_length hp] at hr'
  rw [decodeOne_of_refuses hpx hr', ← hoffset]

/-- An opcode of the second map that no row has is refused before anything behind it is read. -/
theorem decodeOne_unknownOpcode_append :
    x86Of32.decodeOne [0x0f, 0x04] 0 0 = .error ⟨0, .unknownOpcode⟩ ∧
      ∀ x, x86Of32.decodeOne ([0x0f, 0x04] ++ x) 0 0 = .error ⟨0, .unknownOpcode⟩ := by
  have h : x86Of32.decodeOne [0x0f, 0x04] 0 0 = .error ⟨0, .unknownOpcode⟩ := by
    decide +kernel
  exact ⟨h, fun x => decodeOne_append_of_final h (.inl rfl) x⟩

end Engine

end MachineCode
