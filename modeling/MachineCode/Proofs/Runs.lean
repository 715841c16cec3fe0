import MachineCode.Proofs.SingleDecode

/-!
# Decodes from runs

A law that compares two decodes looks at two runs of the readers, one beside the
other. What it then says of the engine follows from the two runs alone: the
record is made of the parts that the run gave, and the error is the fault that it
ended with. The number of bytes that an engine asks for beforehand never shows,
because a run on fewer bytes ends with the same shortage.
-/

namespace MachineCode

open Bytes Read

/-- The bytes at an offset, none of which is taken. -/
def Bytes.Tape.ofOffset (bytes : List UInt8) (offset : Nat) : Tape where
  start := offset
  rest := bytes.drop offset

namespace Bytes.Read

variable {α β : Type} {g : α → β} {m : Read α}

theorem map_ok {a : α} {t t' : Tape}
    (h : m t = .ok a t') : (g <$> m) t = .ok (g a) t' := by
  show EStateM.map g m t = _
  rw [EStateM.map, h]

theorem map_error {e : DecodeError} {t t' : Tape}
    (h : m t = .error e t') : (g <$> m) t = .error e t' := by
  show EStateM.map g m t = _
  rw [EStateM.map, h]

theorem inOperand_map (g : α → β) (m : Read α) :
    (g <$> m).inOperand = g <$> m.inOperand := by
  funext t
  show inOperand (EStateM.map g m) t = EStateM.map g m.inOperand t
  rw [inOperand, EStateM.map, EStateM.map, inOperand]
  cases m t <;> rfl

/-- What was read at an offset is read again from the bytes that were taken. -/
theorem Sequential.run_taken (hm : m.Sequential) {a : α} {bytes : List UInt8} {offset : Nat}
    {t : Tape} (hrun : m (Tape.ofOffset bytes offset) = .ok a t) :
    ∃ t', m { rest := (bytes.drop offset).take t.used } = .ok a t' := by
  obtain ⟨taken, hsplit, ht, htakes⟩ := (hm 0 _).of_ok hrun
  have hused : t.used = taken.length := by
    rw [ht]
    exact Nat.zero_add _
  rw [hsplit, hused, List.take_left]
  exact ⟨_, htakes.run 0⟩

end Bytes.Read

namespace Engine

variable {e : Engine} {address : UInt64} {bytes : List UInt8} {offset : Nat}

theorem decodeOne_beyond (e : Engine) (address : UInt64) (h : bytes.length < offset) :
    e.decodeOne bytes offset address =
      .error ⟨offset, .underrun e.architecture.minLength 0⟩ := by
  rw [decodeOne, if_pos h]

theorem decodeOne_of_stages {i : Instruction} {t : Tape} (hoffset : offset ≤ bytes.length)
    (hrun : e.stages address (Tape.ofOffset bytes offset) = .ok i t) :
    e.decodeOne bytes offset address = .ok (i, offset + t.used) := by
  obtain ⟨taken, hsplit, ht, htakes⟩ := (e.stages_settles address _).of_ok hrun
  rw [decodeOne_of_takes hoffset hsplit htakes, ht, Nat.zero_add]

theorem decodeOne_of_stages_error {err : DecodeError} {t : Tape}
    (hoffset : offset ≤ bytes.length)
    (hrun : e.stages address (Tape.ofOffset bytes offset) = .error err t) :
    e.decodeOne bytes offset address = .error ⟨offset, err.fault⟩ := by
  rcases e.stages_settles address (bytes.drop offset) with
    ⟨taken, rest, i, hsplit, ht⟩ | ⟨fault, hr⟩
  · have hok := ht offset rest
    rw [← hsplit] at hok
    cases hrun.symm.trans hok
  · obtain ⟨raised, t', herror, rfl⟩ := hr.run offset
    cases hrun.symm.trans herror
    exact decodeOne_of_refuses hoffset hr

/-- An engine that asks for bytes beforehand fails as a reader that would miss them itself. -/
theorem decodeOne_of_reader_error {m : Read Instruction} {err : DecodeError} {t : Tape}
    (hstages : e.stages address = (Read.atLeast e.architecture.minLength >>= fun _ => m))
    (hshort : ∀ t : Tape, t.rest.length < e.architecture.minLength →
      ∃ err t', m t = .error err t' ∧
        err.fault = .underrun e.architecture.minLength t.rest.length)
    (hoffset : offset ≤ bytes.length) (hrun : m (Tape.ofOffset bytes offset) = .error err t) :
    e.decodeOne bytes offset address = .error ⟨offset, err.fault⟩ := by
  by_cases hlen : (Tape.ofOffset bytes offset).rest.length < e.architecture.minLength
  · obtain ⟨err', t', hmissed, hfault⟩ := hshort _ hlen
    cases hrun.symm.trans hmissed
    have hasked := bind_error (f := fun _ => m) (atLeast_short hlen)
    rw [← hstages] at hasked
    rw [hfault]
    exact decodeOne_of_stages_error hoffset hasked
  · have hasked := (atLeast_bind (Nat.le_of_not_lt hlen)).trans hrun
    rw [← hstages] at hasked
    exact decodeOne_of_stages_error hoffset hasked

end Engine

namespace X86

variable {e : Engine} {address : UInt64} {bytes : List UInt8} {offset : Nat} {f : Frame}
  {body : Body} {t t' : Tape}

theorem decode_of_parts {mode : Width} (detail : Bool)
    (hrun : readParts mode address t = .ok (f, body) t') :
    decode mode detail address t =
      .ok (instructionOf f body (t.rest.take (t'.used - t.used)) address detail) t' := by
  have hbytes : (readParts mode address).withBytes t =
      .ok ((f, body), t.rest.take (t'.used - t.used)) t' := by
    rw [withBytes, hrun]
  exact bind_ok hbytes

theorem decode_of_parts_error {mode : Width} {err : DecodeError} (detail : Bool)
    (hrun : readParts mode address t = .error err t') :
    decode mode detail address t = .error err t' :=
  bind_error (withBytes_error hrun)

theorem decodeOne_of_parts (he : e.architecture = .x86) (hoffset : offset ≤ bytes.length)
    (hrun : readParts e.mode.width address (Tape.ofOffset bytes offset) = .ok (f, body) t) :
    e.decodeOne bytes offset address =
      .ok (instructionOf f body ((bytes.drop offset).take t.used) address e.options.detail,
        offset + t.used) := by
  refine Engine.decodeOne_of_stages hoffset ?_
  have hpos : e.architecture.minLength ≤ (Tape.ofOffset bytes offset).rest.length := by
    obtain ⟨taken, hsplit, -, htakes⟩ := (readParts_sequential _ address 0 _).of_ok hrun
    have hlen := (readParts_takes htakes).1
    rw [he, Tape.ofOffset, hsplit, List.length_append]
    exact Nat.le_add_right_of_le hlen
  rw [Engine.stages_x86 he, atLeast_bind hpos]
  exact decode_of_parts _ hrun

theorem decodeOne_of_parts_error (he : e.architecture = .x86) {err : DecodeError}
    (hoffset : offset ≤ bytes.length)
    (hrun : readParts e.mode.width address (Tape.ofOffset bytes offset) = .error err t) :
    e.decodeOne bytes offset address = .error ⟨offset, err.fault⟩ := by
  refine Engine.decodeOne_of_reader_error (Engine.stages_x86 he address) ?_ hoffset
    (decode_of_parts_error _ hrun)
  rintro ⟨start, used, rest⟩ hlen
  rw [he] at hlen ⊢
  obtain rfl := List.eq_nil_of_length_eq_zero (Nat.lt_one_iff.mp hlen)
  exact ⟨_, _, decode_of_parts_error _ rfl, rfl⟩

/-- What a successful decode read. -/
theorem parts_of_decodeOne {i : Instruction} {next : Nat} (he : e.architecture = .x86)
    (h : e.decodeOne bytes offset address = .ok (i, next)) :
    ∃ f body t, offset ≤ bytes.length ∧
      readParts e.mode.width address (Tape.ofOffset bytes offset) = .ok (f, body) t ∧
      i = instructionOf f body ((bytes.drop offset).take t.used) address e.options.detail ∧
      next = offset + t.used := by
  by_cases hoffset : bytes.length < offset
  · rw [Engine.decodeOne_beyond e address hoffset] at h
    cases h
  · have hle := Nat.le_of_not_lt hoffset
    cases hrun : readParts e.mode.width address (Tape.ofOffset bytes offset) with
    | ok parts t =>
        obtain ⟨f, body⟩ := parts
        rw [decodeOne_of_parts he hle hrun] at h
        cases h
        exact ⟨f, body, t, hle, rfl, rfl, rfl⟩
    | error err t =>
        rw [decodeOne_of_parts_error he hle hrun] at h
        cases h

end X86

namespace Mips

variable {e : Engine} {v : Variant} {address : UInt64} {bytes : List UInt8} {offset : Nat}
  {w : Word} {row : Row} {operands : List Operand} {t t' : Tape}

theorem decode_of_parts (detail : Bool)
    (hrun : readParts v address t = .ok (w, row, operands) t') :
    decode v detail address t =
      .ok (instructionOf w row operands (t.rest.take (t'.used - t.used)) address detail) t' := by
  have hbytes : (readParts v address).withBytes t =
      .ok ((w, row, operands), t.rest.take (t'.used - t.used)) t' := by
    rw [withBytes, hrun]
  exact bind_ok hbytes

theorem decode_of_parts_error {err : DecodeError} (detail : Bool)
    (hrun : readParts v address t = .error err t') :
    decode v detail address t = .error err t' :=
  bind_error (withBytes_error hrun)

theorem readWord_short (h : t.rest.length < wordLength) :
    readWord v t = .error ⟨t.position, .underrun wordLength t.rest.length⟩ t :=
  bind_error (bytes_short h)

theorem decodeOne_of_parts (he : e.architecture = .mips) (hoffset : offset ≤ bytes.length)
    (hrun : readParts (.ofMode e.mode) address (Tape.ofOffset bytes offset) =
      .ok (w, row, operands) t) :
    e.decodeOne bytes offset address =
      .ok (instructionOf w row operands ((bytes.drop offset).take t.used) address
        e.options.detail, offset + t.used) := by
  refine Engine.decodeOne_of_stages hoffset ?_
  have hpos : e.architecture.minLength ≤ (Tape.ofOffset bytes offset).rest.length := by
    rw [he]
    refine Nat.le_of_not_lt fun hlen => ?_
    rw [readParts, bind_error (readWord_short hlen)] at hrun
    cases hrun
  rw [Engine.stages_mips he, atLeast_bind hpos]
  exact decode_of_parts _ hrun

theorem decodeOne_of_parts_error (he : e.architecture = .mips) {err : DecodeError}
    (hoffset : offset ≤ bytes.length)
    (hrun : readParts (.ofMode e.mode) address (Tape.ofOffset bytes offset) = .error err t) :
    e.decodeOne bytes offset address = .error ⟨offset, err.fault⟩ := by
  refine Engine.decodeOne_of_reader_error (Engine.stages_mips he address) ?_ hoffset
    (decode_of_parts_error _ hrun)
  intro t hlen
  rw [he] at hlen ⊢
  exact ⟨_, _, decode_of_parts_error _ (bind_error (readWord_short hlen)), rfl⟩

theorem of_readParts {address : UInt64} {w : Word} {row : Row} {ops : List Operand}
    {t t' : Tape} (hrun : readParts v address t = .ok (w, row, ops) t') :
    readWord v t = .ok w t' ∧ v.row? w = some row ∧ v.operands? address w row = some ops := by
  obtain ⟨w', t₁, hword, hrest⟩ := of_bind_ok hrun
  cases hrow : v.row? w' with
  | none =>
      simp only [hrow] at hrest
      cases hrest
  | some row' =>
      cases hops : v.operands? address w' row' with
      | none =>
          simp only [hrow, hops] at hrest
          cases hrest
      | some ops' =>
          simp only [hrow, hops] at hrest
          cases hrest
          exact ⟨hword, hrow, hops⟩

/-- What a successful decode read. -/
theorem parts_of_decodeOne {i : Instruction} {next : Nat} (he : e.architecture = .mips)
    (h : e.decodeOne bytes offset address = .ok (i, next)) :
    ∃ w row operands t, offset ≤ bytes.length ∧
      readParts (.ofMode e.mode) address (Tape.ofOffset bytes offset) = .ok (w, row, operands) t ∧
      i = instructionOf w row operands ((bytes.drop offset).take t.used) address
        e.options.detail ∧
      next = offset + t.used := by
  by_cases hoffset : bytes.length < offset
  · rw [Engine.decodeOne_beyond e address hoffset] at h
    cases h
  · have hle := Nat.le_of_not_lt hoffset
    cases hrun : readParts (.ofMode e.mode) address (Tape.ofOffset bytes offset) with
    | ok parts t =>
        obtain ⟨w, row, operands⟩ := parts
        rw [decodeOne_of_parts he hle hrun] at h
        cases h
        exact ⟨w, row, operands, t, hle, rfl, rfl, rfl⟩
    | error err t =>
        rw [decodeOne_of_parts_error he hle hrun] at h
        cases h

end Mips

end MachineCode
