import MachineCode.Proofs.Stages

/-!
# Decoding one instruction

The stages settle, so an engine at a reader does one of two things. If the stages
took bytes, the reader moves behind them and the record spells them. If they
refused, the engine undoes whatever the failed stage did: the reader is back
where it was, and the report is moved to the start of the instruction, wherever
the stage had put it.

The same two cases read at an offset of a buffer are what the laws about cut and
extended buffers start from.
-/

namespace MachineCode

open Bytes Read

namespace Bytes.Reader

theorem ofPosition_position {data : List UInt8} {position : Nat} (h : position ≤ data.length) :
    (ofPosition data position).position = position :=
  Nat.min_eq_left h

theorem rest_ofPosition {data : List UInt8} {position : Nat} (h : position ≤ data.length) :
    (ofPosition data position).rest = data.drop position := by
  rw [rest, ofPosition_position h]
  rfl

/-- Wherever a reader was moved, restoring its position brings it back. -/
theorem restore_ofPosition (r : Reader) (moved : Nat) :
    (ofPosition r.data moved).restore r.position = r := by
  cases r with
  | mk data position hle =>
      simp only [restore, ofPosition, Nat.min_eq_left hle]

end Bytes.Reader

namespace Engine

variable {e : Engine} {address : UInt64} {taken rest : List UInt8} {i : Instruction}
  {fault : Fault}

theorem decodeAt_of_takes {r : Reader} (hrest : r.rest = taken ++ rest)
    (ht : (e.stages address).Takes 0 taken i) :
    e.decodeAt r address = .ok i (Reader.ofPosition r.data (r.position + taken.length)) := by
  rw [decodeAt, runStages, hrest, ht r.position rest]
  simp only [Tape.position, Nat.zero_add]

theorem runStages_of_refuses {r : Reader} (hr : (e.stages address).Refuses 0 r.rest fault) :
    ∃ raised moved, e.runStages address r = .error raised (Reader.ofPosition r.data moved) ∧
      raised.fault = fault := by
  obtain ⟨raised, t, hrun, hfault⟩ := hr.run r.position
  refine ⟨raised, t.position, ?_, hfault⟩
  rw [runStages, hrun]

theorem decodeAt_of_raised {r : Reader} {raised : DecodeError} {moved : Nat}
    (hrun : e.runStages address r = .error raised (Reader.ofPosition r.data moved)) :
    e.decodeAt r address = .error (raised.moveTo r.position) r := by
  rw [decodeAt, hrun]
  simp only [Reader.restore_ofPosition]

/-- A single decode succeeds or fails as a whole. On success the reader moves behind the
instruction, whose record gives its address, its bytes as they stand in the buffer, and their
number, which is one that the architecture allows. On failure, whatever a stage did to the reader
and wherever it put the report, the reader is the one from before and the report is at its
position. -/
theorem decodeAt_all_or_nothing (e : Engine) (r : Reader) (address : UInt64) :
    (∃ i r', e.decodeAt r address = .ok i r' ∧
      r'.data = r.data ∧ r'.position = r.position + i.length.toNat ∧
      e.architecture.minLength ≤ i.length.toNat ∧
      i.length.toNat ≤ e.architecture.maxLength ∧
      i.bytes.length = i.length.toNat ∧
      i.bytes = (r.data.drop r.position).take i.length.toNat ∧
      i.address = address) ∨
    ∃ raised moved, e.runStages address r = .error raised moved ∧
      e.decodeAt r address = .error { offset := r.position, fault := raised.fault } r := by
  rcases e.stages_settles address r.rest with ⟨taken, rest, i, hrest, ht⟩ | ⟨fault, hr⟩
  · left
    obtain ⟨hspells, hmin, hmax⟩ := stages_takes ht
    have hfits : r.position + taken.length ≤ r.data.length := by
      have hlen := congrArg List.length hrest
      rw [Reader.rest, List.length_drop, List.length_append] at hlen
      have hle := r.position_le
      omega
    refine ⟨i, _, decodeAt_of_takes hrest ht, rfl, ?_, ?_, ?_, ?_, ?_, hspells.address_eq⟩
    · rw [Reader.ofPosition_position hfits, hspells.length_eq]
    · rw [hspells.length_eq]; exact hmin
    · rw [hspells.length_eq]; exact hmax
    · rw [hspells.bytes_eq, hspells.length_eq]
    · rw [← Reader.rest, hrest, hspells.bytes_eq, hspells.length_eq, List.take_left]
  · right
    obtain ⟨raised, moved, hrun, -⟩ := runStages_of_refuses hr
    exact ⟨raised, _, hrun, decodeAt_of_raised hrun⟩

/-- An x86 engine of 32 bits with default options. -/
def x86Of32 : Engine where
  architecture := .x86
  mode := ⟨Mode.width32⟩
  supported := by decide

/-- An x86 engine of 16 bits with default options. -/
def x86Of16 : Engine where
  architecture := .x86
  mode := ⟨Mode.width16⟩
  supported := by decide

/-- An x86 engine of 64 bits with default options. -/
def x86Of64 : Engine where
  architecture := .x86
  mode := ⟨Mode.width64⟩
  supported := by decide

/-- A MIPS engine of 32 bits, little-endian, with default options. -/
def mipsOf32 : Engine where
  architecture := .mips
  mode := ⟨Mode.width32⟩
  supported := by decide

-- a lone prefix makes the scan stop at the end of the buffer, and report from there
example :
    (match x86Of32.runStages 0 (Reader.ofPosition [0x90, 0x66] 1),
        x86Of32.decodeAt (Reader.ofPosition [0x90, 0x66] 1) 0 with
      | .error raised moved, .error reported back =>
        decide (raised.offset = 2 ∧ moved.position = 2 ∧ reported.offset = 1 ∧ back.position = 1)
      | _, _ => false) = true := by
  decide +kernel

variable {bytes : List UInt8} {offset : Nat}

theorem decodeOne_of_takes (hoffset : offset ≤ bytes.length)
    (hrest : bytes.drop offset = taken ++ rest) (ht : (e.stages address).Takes 0 taken i) :
    e.decodeOne bytes offset address = .ok (i, offset + taken.length) := by
  have hread := Reader.rest_ofPosition hoffset
  have hfits : offset + taken.length ≤ bytes.length := by
    have hlen := congrArg List.length hrest
    rw [List.length_drop, List.length_append] at hlen
    omega
  rw [decodeOne, if_neg (Nat.not_lt.mpr hoffset), decodeAt_of_takes (hread.trans hrest) ht,
    Reader.ofPosition_position hoffset]
  simp only [Reader.ofPosition, Nat.min_eq_left hfits]

theorem decodeOne_of_refuses (hoffset : offset ≤ bytes.length)
    (hr : (e.stages address).Refuses 0 (bytes.drop offset) fault) :
    e.decodeOne bytes offset address = .error ⟨offset, fault⟩ := by
  rw [← Reader.rest_ofPosition hoffset] at hr
  obtain ⟨raised, moved, hrun, rfl⟩ := runStages_of_refuses hr
  rw [decodeOne, if_neg (Nat.not_lt.mpr hoffset), decodeAt_of_raised hrun,
    Reader.ofPosition_position hoffset]
  rfl

/-- What a successful decode took. -/
theorem takes_of_decodeOne {next : Nat}
    (h : e.decodeOne bytes offset address = .ok (i, next)) :
    ∃ taken rest, offset ≤ bytes.length ∧ bytes.drop offset = taken ++ rest ∧
      (e.stages address).Takes 0 taken i ∧ next = offset + taken.length := by
  by_cases hoffset : bytes.length < offset
  · rw [decodeOne, if_pos hoffset] at h
    cases h
  · have hle := Nat.le_of_not_lt hoffset
    rcases e.stages_settles address (bytes.drop offset) with
      ⟨taken, rest, j, hrest, ht⟩ | ⟨fault, hr⟩
    · rw [decodeOne_of_takes hle hrest ht] at h
      cases h
      exact ⟨taken, rest, hle, hrest, ht, rfl⟩
    · rw [decodeOne_of_refuses hle hr] at h
      cases h

/-- What a failed decode refused. -/
theorem refuses_of_decodeOne {err : DecodeError} (hoffset : offset ≤ bytes.length)
    (h : e.decodeOne bytes offset address = .error err) :
    err.offset = offset ∧ (e.stages address).Refuses 0 (bytes.drop offset) err.fault := by
  rcases e.stages_settles address (bytes.drop offset) with
    ⟨taken, rest, j, hrest, ht⟩ | ⟨fault, hr⟩
  · rw [decodeOne_of_takes hoffset hrest ht] at h
    cases h
  · rw [decodeOne_of_refuses hoffset hr] at h
    cases h
    exact ⟨rfl, hr⟩

end Engine

end MachineCode
