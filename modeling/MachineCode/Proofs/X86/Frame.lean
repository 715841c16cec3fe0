import MachineCode.Proofs.X86.Selection

/-!
# Reading the frame settles

Everything before the operands is read by a scan that stops at the first byte it
does not want, so the scan alone does not settle: the byte that ended it is part
of no prefix. It is part of the opcode, though, and opcode and prefixes together
settle.

The bytes that may be escapes need a closer look. In 64-bit mode most of them
are escapes at once. Otherwise the byte behind decides, and it is needed either
way: as payload if the byte is an escape, as ModRM byte if it is an opcode. Where
that byte is missing the decoder cannot tell yet, and reports an underrun.
-/

namespace MachineCode.X86

open Bytes Read

variable {h : Head}

theorem readOpcode_sequential (h : Head) : (readOpcode h).Sequential := by
  refine Sequential.byte.bind fun b => ?_
  split
  · exact .pure _
  · split
    · exact .pure _
    · refine Sequential.byte.bind fun c => ?_
      split
      · exact Sequential.byte.bind fun d => .pure _
      · split
        · exact Sequential.byte.bind fun d => .pure _
        · exact .pure _

theorem readOpcode_faults (h : Head) : (readOpcode h).Faults (·.isTruncated = false) := by
  refine Faults.byte.bind fun b => ?_
  split
  · exact .pure _
  · split
    · exact .pure _
    · refine Faults.byte.bind fun c => ?_
      split
      · exact Faults.byte.bind fun d => .pure _
      · split
        · exact Faults.byte.bind fun d => .pure _
        · exact .pure _

theorem readSelector_sequential (h : Head) : (readSelector h).Sequential :=
  (readOpcode_sequential h).bind fun opcode => selectRow_sequential h opcode

theorem readSelector_operandsLast (h : Head) (u : Nat) (bs : List UInt8) :
    (readSelector h).OperandsLast u bs :=
  .bind_of_not_truncated (readOpcode_sequential h u bs) (readOpcode_faults h)
    fun _ rest opcode _ _ => selectRow_operandsLast h opcode _ rest

theorem readSelector_nil (h : Head) (s u : Nat) :
    readSelector h ⟨s, u, []⟩ = .error ⟨s + u, .underrun 1 0⟩ ⟨s, u, []⟩ :=
  rfl

theorem readSelector_takes {u : Nat} {taken : List UInt8} {f : Frame}
    (ht : (readSelector h).Takes u taken f) : 1 ≤ taken.length := by
  cases taken with
  | cons b bs => exact Nat.le_add_left 1 bs.length
  | nil =>
      have hrun := ht.run 0
      rw [readSelector_nil] at hrun
      cases hrun

/-- A byte that may be an escape, as an opcode, waits for its ModRM byte. -/
theorem chooseRow_escape {b : UInt8} (hb : b ∈ escapeBytes) (h : Head) :
    chooseRow (candidates .legacy .primary b) h none = .error (.underrun 1 0) := by
  obtain ⟨⟨r, hr⟩, hselects⟩ := candidates_escape hb
  have hoperand : ((candidates .legacy .primary b).any fun r =>
      r.needsModrm && !r.pattern.selectsOnModrm && r.pattern.accepts h none) = false := by
    refine List.any_eq_false.mpr fun r hr => ?_
    rw [hselects r hr, Bool.not_true, Bool.and_false]
    exact Bool.false_ne_true
  have hselector : ((candidates .legacy .primary b).any fun r =>
      r.pattern.selectsOnModrm) = true :=
    List.any_eq_true.mpr ⟨r, hr, hselects r hr⟩
  have hneeds : ∀ r ∈ candidates .legacy .primary b, r.needsModrm = true :=
    fun r hr => needsModrm_of_selectsOnModrm (hselects r hr)
  simp only [chooseRow, hoperand, hselector, filter_none_of_needsModrm hneeds, mostSpecific_nil]
  simp only [Option.isSome_none, Bool.false_eq_true, if_false, if_true]

theorem readSelector_escape {b : UInt8} (hb : b ∈ escapeBytes) (hlegacy : h.encoding = .legacy)
    (s u : Nat) :
    readSelector h ⟨s, u, [b]⟩ = .error ⟨s, .underrun 1 0⟩ ⟨s, u + 1, []⟩ := by
  have hopcode : readOpcode h ⟨s, u, [b]⟩ = .ok ⟨.primary, b, [b]⟩ ⟨s, u + 1, []⟩ := by
    have hne : b ≠ 0x0f := by
      rintro rfl
      revert hb
      decide
    rw [readOpcode, bind_ok (show Read.byte ⟨s, u, [b]⟩ = .ok b ⟨s, u + 1, []⟩ from rfl),
      if_neg (fun hne => hne hlegacy), if_pos hne]
    rfl
  rw [readSelector, bind_ok hopcode]
  refine selectRow_error ?_
  rw [hlegacy]
  exact chooseRow_escape hb h

theorem readSelector_escape_takes {b : UInt8} (hb : b ∈ escapeBytes)
    (hlegacy : h.encoding = .legacy) {u : Nat} {bs taken rest : List UInt8} {f : Frame}
    (hsplit : b :: bs = taken ++ rest) (ht : (readSelector h).Takes u taken f) :
    2 ≤ taken.length := by
  match taken with
  | [] => exact absurd (readSelector_takes ht) (by decide)
  | [x] =>
      rw [List.singleton_append, List.cons.injEq] at hsplit
      have hrun := ht.run 0
      rw [← hsplit.1, readSelector_escape hb hlegacy] at hrun
      cases hrun
  | _ :: _ :: tail => exact Nat.le_add_left 2 tail.length

/-! ## The payload of an escape

Behind prefixes that no vector encoding allows, an escape is refused before its payload
is read, and otherwise after it is read as a whole. Either way the verdict does not wait
for the bytes that follow, so escape and payload are sequential although they are read
as part of the scan, which is not. -/

theorem Scan.outcome_ok {s : Scan} (hs : s.fault = none) (start : Nat) :
    s.outcome start = .ok s.head s.tape := by
  rw [outcome, error?, hs]
  rfl

/-- A stage may report its fault elsewhere, but reports that fault. -/
theorem Scan.outcome_error {s : Scan} {fault : Fault} (hs : s.fault = some fault)
    (start : Nat) : ∃ e, s.outcome start = .error e s.tape ∧ e.fault = fault := by
  rw [outcome, error?, hs]
  cases fault <;> exact ⟨_, rfl, rfl⟩

/-- Reads an escape byte and its payload. -/
def readEscaped (h : Head) (escape : Escape) : Read Head := fun t =>
  (Scan.escaped h escape t).outcome t.start

theorem payloadLength_pos (escape : Escape) : 1 ≤ escape.payloadLength := by
  cases escape <;> decide

/-- A payload that is complete is refused for what it says, not for what is missing. -/
theorem readPayload_fault {h : Head} {escape : Escape} {bytes : List UInt8} {fault : Fault}
    (hf : (Scan.readPayload h escape bytes).2 = some fault) : fault = .unknownOpcode := by
  cases escape with
  | vexShort =>
      simp only [Scan.readPayload, Scan.readShort] at hf
      split at hf
      · cases hf
      · cases hf; rfl
  | vexLong | xop =>
      simp only [Scan.readPayload, Scan.readMiddle] at hf
      split at hf
      · split at hf
        · cases hf; rfl
        · cases hf
      · cases hf; rfl
  | evex =>
      simp only [Scan.readPayload, Scan.readLong] at hf
      split at hf
      · split at hf
        · cases hf; rfl
        · split at hf
          · cases hf; rfl
          · cases hf
      · cases hf; rfl

variable {escape : Escape}

theorem readEscaped_of_actOnVectors (hp : h.prefixes.actOnVectors = true) (t : Tape) :
    readEscaped h escape t = .error ⟨t.start, .unknownOpcode⟩ t := by
  rw [readEscaped, Scan.escaped, if_pos hp]
  rfl

theorem readEscaped_of_bytes {t t' : Tape} {bytes : List UInt8}
    (hp : ¬h.prefixes.actOnVectors = true)
    (hb : Read.bytes escape.payloadLength (t.advance 1) = .ok bytes t') :
    let read := Scan.readPayload { h with encoding := escape.encoding } escape bytes
    (read.2 = none → readEscaped h escape t = .ok read.1 t') ∧
      ∀ fault, read.2 = some fault →
        ∃ e, readEscaped h escape t = .error e t' ∧ e.fault = fault := by
  rw [readEscaped, Scan.escaped, if_neg hp, Scan.payload, hb]
  exact ⟨fun hnone => Scan.outcome_ok hnone t.start,
    fun fault hsome => Scan.outcome_error hsome t.start⟩

theorem readEscaped_of_short {t t' : Tape} {e : DecodeError}
    (hp : ¬h.prefixes.actOnVectors = true)
    (hb : Read.bytes escape.payloadLength (t.advance 1) = .error e t') :
    ∃ e', readEscaped h escape t = .error e' t' ∧ e'.fault = e.fault := by
  rw [readEscaped, Scan.escaped, if_neg hp, Scan.payload, hb]
  exact Scan.outcome_error rfl t.start

theorem readEscaped_sequential (h : Head) (escape : Escape) :
    (readEscaped h escape).Sequential := by
  intro u bs
  by_cases hp : h.prefixes.actOnVectors = true
  · exact .inr ⟨.unknownOpcode, fun start more _ => ⟨_, _, readEscaped_of_actOnVectors hp _, rfl⟩⟩
  · cases bs with
    | nil =>
        refine .inr ⟨.underrun escape.payloadLength 0, fun start more hmore => ?_⟩
        rw [hmore rfl]
        have hb := bytes_short (t := Tape.advance ⟨start, u, []⟩ 1) (payloadLength_pos escape)
        obtain ⟨e, hrun, hfault⟩ := readEscaped_of_short hp hb
        exact ⟨e, _, hrun, hfault⟩
    | cons b bs =>
        rcases Sequential.bytes escape.payloadLength (u + 1) bs with
          ⟨taken, rest, payload, rfl, ht⟩ | ⟨fault, hr⟩
        · let read := Scan.readPayload { h with encoding := escape.encoding } escape payload
          cases hread : read.2 with
          | none =>
              refine .inl ⟨b :: taken, rest, read.1, rfl, fun start more => ?_⟩
              rw [(readEscaped_of_bytes (t := ⟨start, u, b :: taken ++ more⟩) hp
                (ht start more)).1 hread, List.length_cons, Nat.add_right_comm, Nat.add_assoc]
          | some fault =>
              refine .inr ⟨fault, fun start more _ => ?_⟩
              rw [List.cons_append, List.append_assoc]
              obtain ⟨e, hrun, hfault⟩ := (readEscaped_of_bytes
                (t := ⟨start, u, b :: (taken ++ (rest ++ more))⟩) hp
                (ht start (rest ++ more))).2 fault hread
              exact ⟨e, _, hrun, hfault⟩
        · refine .inr ⟨fault, fun start more hmore => ?_⟩
          obtain ⟨e, t, hb, rfl⟩ := hr start more hmore
          obtain ⟨e', hrun, hfault⟩ :=
            readEscaped_of_short (t := ⟨start, u, b :: (bs ++ more)⟩) hp hb
          exact ⟨e', t, hrun, hfault⟩

theorem readEscaped_faults (h : Head) (escape : Escape) :
    (readEscaped h escape).Faults (·.isTruncated = false) := by
  intro t e t' hrun
  by_cases hp : h.prefixes.actOnVectors = true
  · rw [readEscaped_of_actOnVectors hp] at hrun
    cases hrun
    rfl
  · cases hb : Read.bytes escape.payloadLength (t.advance 1) with
    | ok bytes t₁ =>
        obtain ⟨hnone, hsome⟩ := readEscaped_of_bytes hp hb
        cases hread : (Scan.readPayload { h with encoding := escape.encoding } escape
            bytes).2 with
        | none =>
            rw [hnone hread] at hrun
            cases hrun
        | some fault =>
            obtain ⟨e₁, hrun₁, rfl⟩ := hsome fault hread
            rw [hrun₁] at hrun
            cases hrun
            rw [readPayload_fault hread]
            rfl
    | error e₁ t₁ =>
        obtain ⟨e₂, hrun₂, hfault⟩ := readEscaped_of_short hp hb
        rw [hrun₂] at hrun
        cases hrun
        rw [hfault]
        exact Faults.bytes _ _ _ _ hb

/-- An escape takes its byte and at least one more. -/
theorem readEscaped_takes {u : Nat} {taken : List UInt8} {h' : Head}
    (ht : (readEscaped h escape).Takes u taken h') : 2 ≤ taken.length := by
  have hrun := ht.run 0
  by_cases hp : h.prefixes.actOnVectors = true
  · rw [readEscaped_of_actOnVectors hp] at hrun
    cases hrun
  · by_cases hlen : 2 ≤ taken.length
    · exact hlen
    · exfalso
      have hpos := payloadLength_pos escape
      have hdrop : (Tape.advance ⟨0, u, taken⟩ 1).rest.length < escape.payloadLength := by
        show (taken.drop 1).length < _
        rw [List.length_drop]
        omega
      have hb := bytes_short hdrop
      obtain ⟨e, hrun', -⟩ := readEscaped_of_short hp hb
      rw [hrun] at hrun'
      cases hrun'

/-- What follows an escape byte: the payload, the opcode and the row. -/
def readVector (h : Head) (escape : Escape) : Read Frame :=
  readEscaped h escape >>= readSelector

theorem readVector_sequential (h : Head) (escape : Escape) :
    (readVector h escape).Sequential :=
  (readEscaped_sequential h escape).bind readSelector_sequential

theorem readVector_operandsLast (h : Head) (escape : Escape) (u : Nat) (bs : List UInt8) :
    (readVector h escape).OperandsLast u bs :=
  .bind_of_not_truncated (readEscaped_sequential h escape u bs) (readEscaped_faults h escape)
    fun _ rest h' _ _ => readSelector_operandsLast h' _ rest

theorem readVector_takes {u : Nat} {taken : List UInt8} {f : Frame}
    (ht : (readVector h escape).Takes u taken f) : 2 ≤ taken.length := by
  have hrun := ht.run 0
  rcases readEscaped_sequential h escape u taken with ⟨first, rest, h', rfl, hf⟩ | ⟨fault, hr⟩
  · have hlen := readEscaped_takes hf
    rw [List.length_append]
    omega
  · obtain ⟨e, t, hrun', -⟩ := hr.run 0
    rw [readVector, bind_error hrun'] at hrun
    cases hrun

theorem ofBytes?_of_not_mem {b : UInt8} (hb : b ∉ escapeBytes) (mode : Width)
    (bs : List UInt8) : Escape.ofBytes? mode (b :: bs) = none := by
  simp only [escapeBytes, List.mem_cons, List.not_mem_nil, or_false, not_or] at hb
  obtain ⟨hc4, hc5, h62, h8f⟩ := hb
  simp only [Escape.ofBytes?, if_neg hc4, if_neg hc5, if_neg h62, if_neg h8f]

/-- The byte behind is all that matters. -/
theorem ofBytes?_pair (mode : Width) (b c : UInt8) (bs : List UInt8) :
    Escape.ofBytes? mode (b :: c :: bs) = Escape.ofBytes? mode [b, c] :=
  rfl

/-- An escape that shows without the byte behind it is one before any byte. -/
theorem ofBytes?_of_singleton {mode : Width} {b : UInt8}
    (hb : Escape.ofBytes? mode [b] = some escape) (bs : List UInt8) :
    Escape.ofBytes? mode (b :: bs) = some escape := by
  simp only [Escape.ofBytes?, List.head?_nil, Option.any_none, Bool.or_false] at hb ⊢
  cases hmode : mode.isLong with
  | true =>
      -- of the four bytes, only the last asks for the byte behind in this mode
      rw [hmode] at hb
      simp only [Bool.true_or, if_true] at hb ⊢
      split at hb
      · next hc4 => rw [if_pos hc4]; exact hb
      · next hc4 =>
          rw [if_neg hc4]
          split at hb
          · next hc5 => rw [if_pos hc5]; exact hb
          · next hc5 =>
              rw [if_neg hc5]
              split at hb
              · next h62 => rw [if_pos h62]; exact hb
              · split at hb <;> cases hb
  | false =>
      rw [hmode] at hb
      simp only [Bool.false_eq_true, if_false, ite_self] at hb
      cases hb

/-! ## The prefixes

The scan carries what it has found so far, so the induction is over the bytes with the
prefixes left open. Where they end there is a lemma of its own: up to two bytes are seen
there before it is settled how reading goes on, and both of them belong to what is read
then. -/

/-- Reads the rest of the head, after some prefixes. -/
def readHeadFrom (mode : Width) (p : Prefixes) : Read Head := fun t =>
  (Scan.collect mode p t.start t.used t.rest).outcome t.start

/-- Reads the rest of the frame, after some prefixes. -/
def readFrameFrom (mode : Width) (p : Prefixes) : Read Frame :=
  readHeadFrom mode p >>= readSelector

variable {mode : Width} {p p' : Prefixes} {b : UInt8}

theorem readHeadFrom_nil (mode : Width) (p : Prefixes) (s u : Nat) :
    readHeadFrom mode p ⟨s, u, []⟩ = .error ⟨s + u, .underrun 1 0⟩ ⟨s, u, []⟩ :=
  rfl

theorem readHeadFrom_excessive (hadd : p.add? mode b = some p')
    (hcount : p'.count > Prefixes.maxCount) (s u : Nat) (bs : List UInt8) :
    readHeadFrom mode p ⟨s, u, b :: bs⟩ =
      .error ⟨s, .excessivePrefixes p'.count⟩ ⟨s, u + 1, bs⟩ := by
  simp only [readHeadFrom, Scan.collect, hadd, if_pos hcount]
  rfl

theorem readHeadFrom_add (hadd : p.add? mode b = some p')
    (hcount : ¬p'.count > Prefixes.maxCount) (s u : Nat) (bs : List UInt8) :
    readHeadFrom mode p ⟨s, u, b :: bs⟩ = readHeadFrom mode p' ⟨s, u + 1, bs⟩ := by
  simp only [readHeadFrom, Scan.collect, hadd, if_neg hcount]

/-- The byte that ends the prefixes begins a legacy opcode. -/
theorem readHeadFrom_legacy (hadd : p.add? mode b = none) {s u : Nat} {bs : List UInt8}
    (hesc : Escape.ofBytes? mode (b :: bs) = none) :
    readHeadFrom mode p ⟨s, u, b :: bs⟩ = .ok { mode, prefixes := p } ⟨s, u, b :: bs⟩ := by
  simp only [readHeadFrom, Scan.collect, hadd, Scan.afterPrefixes, hesc]
  rfl

/-- The byte that ends the prefixes is an escape. -/
theorem readHeadFrom_vector (hadd : p.add? mode b = none) {s u : Nat} {bs : List UInt8}
    (hesc : Escape.ofBytes? mode (b :: bs) = some escape) :
    readHeadFrom mode p ⟨s, u, b :: bs⟩ =
      readEscaped { mode, prefixes := p } escape ⟨s, u, b :: bs⟩ := by
  simp only [readHeadFrom, Scan.collect, hadd, Scan.afterPrefixes, hesc]
  rfl

theorem readFrameFrom_legacy (hadd : p.add? mode b = none) {s u : Nat} {bs : List UInt8}
    (hesc : Escape.ofBytes? mode (b :: bs) = none) :
    readFrameFrom mode p ⟨s, u, b :: bs⟩ =
      readSelector { mode, prefixes := p } ⟨s, u, b :: bs⟩ :=
  bind_ok (readHeadFrom_legacy hadd hesc)

theorem readFrameFrom_vector (hadd : p.add? mode b = none) {s u : Nat} {bs : List UInt8}
    (hesc : Escape.ofBytes? mode (b :: bs) = some escape) :
    readFrameFrom mode p ⟨s, u, b :: bs⟩ =
      readVector { mode, prefixes := p } escape ⟨s, u, b :: bs⟩ :=
  bind_congr (readHeadFrom_vector hadd hesc)

/-- The byte that ends the prefixes, and the byte behind it if that is needed to tell escapes from
opcodes, decide how reading goes on. -/
theorem readFrameFrom_settles_of_end (hadd : p.add? mode b = none) (u : Nat)
    (bs : List UInt8) :
    (readFrameFrom mode p).Settles u (b :: bs) ∧
      (readFrameFrom mode p).OperandsLast u (b :: bs) := by
  let h : Head := { mode, prefixes := p }
  by_cases hb : b ∈ escapeBytes
  · cases bs with
    | nil =>
        cases hesc : Escape.ofBytes? mode [b] with
        | none =>
            -- escape or opcode: the byte that would tell is missing
            have hr : (readFrameFrom mode p).Refuses u [b] (.underrun 1 0) := by
              intro start more hmore
              rw [hmore rfl, List.append_nil, readFrameFrom_legacy hadd hesc]
              exact ⟨_, _, readSelector_escape hb rfl start u, rfl⟩
            exact ⟨.inr ⟨_, hr⟩, hr.operandsLast rfl⟩
        | some escape =>
            have hagree : (readFrameFrom mode p).AgreeAfter (readVector h escape) u [b] :=
              fun _ more => readFrameFrom_vector hadd (ofBytes?_of_singleton hesc more)
            refine ⟨.of_agreeAfter [b] hagree (readVector_sequential h escape u [b]) ?_,
              .of_agreeAfter [b] hagree (readVector_operandsLast h escape u [b])⟩
            intro taken rest f _ ht
            exact Nat.le_of_succ_le (readVector_takes ht)
    | cons c bs =>
        cases hesc : Escape.ofBytes? mode [b, c] with
        | none =>
            have hagree : (readFrameFrom mode p).AgreeAfter (readSelector h) u [b, c] :=
              fun _ more => readFrameFrom_legacy hadd ((ofBytes?_pair mode b c more).trans hesc)
            refine ⟨.of_agreeAfter [b, c] hagree (readSelector_sequential h u (b :: c :: bs)) ?_,
              .of_agreeAfter [b, c] hagree (readSelector_operandsLast h u (b :: c :: bs))⟩
            intro taken rest f hsplit ht
            exact readSelector_escape_takes hb rfl hsplit ht
        | some escape =>
            have hagree : (readFrameFrom mode p).AgreeAfter (readVector h escape) u [b, c] :=
              fun _ more => readFrameFrom_vector hadd ((ofBytes?_pair mode b c more).trans hesc)
            refine ⟨.of_agreeAfter [b, c] hagree (readVector_sequential h escape u
                (b :: c :: bs)) ?_,
              .of_agreeAfter [b, c] hagree (readVector_operandsLast h escape u (b :: c :: bs))⟩
            intro taken rest f _ ht
            exact readVector_takes ht
  · have hagree : (readFrameFrom mode p).AgreeAfter (readSelector h) u [b] :=
      fun _ more => readFrameFrom_legacy hadd (ofBytes?_of_not_mem hb mode more)
    refine ⟨.of_agreeAfter [b] hagree (readSelector_sequential h u (b :: bs)) ?_,
      .of_agreeAfter [b] hagree (readSelector_operandsLast h u (b :: bs))⟩
    intro taken rest f _ ht
    exact readSelector_takes ht

theorem readFrameFrom_settles (mode : Width) (p : Prefixes) (u : Nat) (bs : List UInt8) :
    (readFrameFrom mode p).Settles u bs ∧ (readFrameFrom mode p).OperandsLast u bs := by
  induction bs generalizing p u with
  | nil =>
      have hr : (readFrameFrom mode p).Refuses u [] (.underrun 1 0) := by
        intro start more hmore
        rw [hmore rfl]
        exact ⟨_, _, bind_error (readHeadFrom_nil mode p start u), rfl⟩
      exact ⟨.inr ⟨_, hr⟩, hr.operandsLast rfl⟩
  | cons b bs ih =>
      cases hadd : p.add? mode b with
      | none => exact readFrameFrom_settles_of_end hadd u bs
      | some p' =>
          by_cases hcount : p'.count > Prefixes.maxCount
          · have hr : (readFrameFrom mode p).Refuses u (b :: bs)
                (.excessivePrefixes p'.count) := by
              intro start more _
              exact ⟨_, _, bind_error (readHeadFrom_excessive hadd hcount start u _), rfl⟩
            exact ⟨.inr ⟨_, hr⟩, hr.operandsLast rfl⟩
          · have hstep : ∀ start more, readFrameFrom mode p ⟨start, u, b :: more⟩ =
                readFrameFrom mode p' ⟨start, u + 1, more⟩ :=
              fun start more => bind_congr (readHeadFrom_add hadd hcount start u more)
            obtain ⟨hsettles, hlast⟩ := ih p' (u + 1)
            exact ⟨.cons hstep hsettles, .cons hstep hlast⟩

theorem readFrame_sequential (mode : Width) : (readFrame mode).Sequential :=
  fun u bs => (readFrameFrom_settles mode {} u bs).1

theorem readFrame_operandsLast (mode : Width) (u : Nat) (bs : List UInt8) :
    (readFrame mode).OperandsLast u bs :=
  (readFrameFrom_settles mode {} u bs).2

end MachineCode.X86
