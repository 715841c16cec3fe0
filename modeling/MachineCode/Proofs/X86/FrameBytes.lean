import MachineCode.Proofs.Taken
import MachineCode.Proofs.X86.Frame
import MachineCode.Proofs.X86.RowChoice
import Mathlib.Data.List.Basic

/-!
# The bytes of a frame

Before its operands an instruction has, in this order, a run of prefix bytes, the
escape of a vector encoding, the opcode and a ModRM byte. Each of them is taken
by one stage, so the bytes of the frame are cut where the stages end. The run of
prefixes ends at the first byte that is no prefix, the escape has the length of
its encoding, and there is a ModRM byte exactly if the row asks for one.
-/

namespace MachineCode.X86

open Bytes Read

variable {h : Head} {escape : Escape} {mode : Width} {p p' : Prefixes} {b : UInt8}
  {t t' : Tape}

/-- The byte that an escape begins with. -/
def Escape.lead : Escape → UInt8
  | vexShort => 0xc5
  | vexLong => 0xc4
  | xop => 0x8f
  | evex => 0x62

/-- The bytes between the prefixes and the opcode: none in the legacy encoding, an escape with its
payload in the others. -/
def Encoding.Escapes : Encoding → List UInt8 → Prop
  | .legacy, bytes => bytes = []
  | .vex, bytes => (∃ x, bytes = [0xc5, x]) ∨ ∃ x y, bytes = [0xc4, x, y]
  | .xop, bytes => ∃ x y, bytes = [0x8f, x, y]
  | .evex, bytes => ∃ x y z, bytes = [0x62, x, y, z]

theorem Escape.escapes (escape : Escape) {payload : List UInt8}
    (hlen : payload.length = escape.payloadLength) :
    escape.encoding.Escapes (escape.lead :: payload) := by
  cases escape with
  | vexShort =>
      obtain ⟨x, rfl⟩ := List.length_eq_one_iff.mp hlen
      exact .inl ⟨x, rfl⟩
  | vexLong =>
      obtain ⟨x, y, rfl⟩ := List.length_eq_two.mp hlen
      exact .inr ⟨x, y, rfl⟩
  | xop =>
      obtain ⟨x, y, rfl⟩ := List.length_eq_two.mp hlen
      exact ⟨x, y, rfl⟩
  | evex =>
      obtain ⟨x, y, z, rfl⟩ := List.length_eq_three.mp hlen
      exact ⟨x, y, z, rfl⟩

theorem Escape.lead_of_ofBytes? {bs : List UInt8}
    (hesc : Escape.ofBytes? mode (b :: bs) = some escape) : b = escape.lead := by
  simp only [Escape.ofBytes?] at hesc
  split at hesc
  · split at hesc <;> cases hesc
    assumption
  · split at hesc
    · split at hesc <;> cases hesc
      assumption
    · split at hesc
      · split at hesc <;> cases hesc
        assumption
      · split at hesc
        · split at hesc <;> cases hesc
          assumption
        · cases hesc

/-- A payload names the map and the fields, and nothing else. -/
theorem readPayload_keeps (h : Head) (escape : Escape) (payload : List UInt8) :
    let h' := (Scan.readPayload h escape payload).1
    h'.mode = h.mode ∧ h'.prefixes = h.prefixes ∧ h'.encoding = h.encoding := by
  cases escape with
  | vexShort =>
      simp only [Scan.readPayload, Scan.readShort]
      split <;> exact ⟨rfl, rfl, rfl⟩
  | vexLong | xop =>
      simp only [Scan.readPayload, Scan.readMiddle]
      split
      · split <;> exact ⟨rfl, rfl, rfl⟩
      · exact ⟨rfl, rfl, rfl⟩
  | evex =>
      simp only [Scan.readPayload, Scan.readLong]
      split
      · split
        · exact ⟨rfl, rfl, rfl⟩
        · split <;> exact ⟨rfl, rfl, rfl⟩
      · exact ⟨rfl, rfl, rfl⟩

theorem readEscaped_took {s u : Nat} {bs : List UInt8} {h' : Head}
    (hrun : readEscaped h escape ⟨s, u, escape.lead :: bs⟩ = .ok h' t') :
    ∃ bytes, Tape.Took ⟨s, u, escape.lead :: bs⟩ t' bytes ∧ h'.encoding.Escapes bytes ∧
      bytes.head? = some escape.lead ∧ h'.mode = h.mode ∧ h'.prefixes = h.prefixes := by
  by_cases hp : h.prefixes.actOnVectors = true
  · rw [readEscaped_of_actOnVectors hp] at hrun
    cases hrun
  · cases hb : Read.bytes escape.payloadLength
        (Tape.advance ⟨s, u, escape.lead :: bs⟩ 1) with
    | error e t₁ =>
        obtain ⟨e', herr, -⟩ := readEscaped_of_short hp hb
        rw [herr] at hrun
        cases hrun
    | ok payload t₁ =>
        obtain ⟨hnone, hsome⟩ := readEscaped_of_bytes hp hb
        obtain ⟨hmode, hprefixes, hencoding⟩ :=
          readPayload_keeps { h with encoding := escape.encoding } escape payload
        cases hread : (Scan.readPayload { h with encoding := escape.encoding } escape
            payload).2 with
        | some fault =>
            obtain ⟨e', herr, -⟩ := hsome fault hread
            rw [herr] at hrun
            cases hrun
        | none =>
            rw [hnone hread] at hrun
            cases hrun
            obtain ⟨htook, hlen⟩ := bytes_took hb
            refine ⟨escape.lead :: payload, ?_, ?_, rfl, hmode, hprefixes⟩
            · exact htook.cons
            · rw [hencoding]
              exact escape.escapes hlen

theorem Prefixes.addLegacy?_count (hadd : p.addLegacy? b = some p') : p'.count = p.count := by
  rw [addLegacy?] at hadd
  split at hadd
  · cases hadd; rfl
  · split at hadd
    · cases hadd; rfl
    · split at hadd
      · cases hadd; rfl
      · split at hadd
        · cases hadd; rfl
        · split at hadd
          · cases hadd; rfl
          · cases hadd

theorem Prefixes.add?_count (hadd : p.add? mode b = some p') : p'.count = p.count + 1 := by
  rw [add?] at hadd
  split at hadd
  · cases hadd; rfl
  · split at hadd
    · next q hlegacy =>
        cases hadd
        exact congrArg (· + 1) (addLegacy?_count hlegacy)
    · cases hadd

/-- How a head is spelled: as many prefix bytes as there are, which lead from some prefixes to
those of the head, and the escape of its encoding. -/
structure Head.Spelled (h : Head) (p : Prefixes) (prefixes escape rest : List UInt8) : Prop where
  prefixes_eq : prefixes.foldlM (Prefixes.add? h.mode) p = some h.prefixes
  count_eq : h.prefixes.count = p.count + prefixes.length
  count_le : p.count ≤ Prefixes.maxCount → h.prefixes.count ≤ Prefixes.maxCount
  /-- The byte behind the prefixes is none. -/
  ended : ∃ b, (escape ++ rest).head? = some b ∧ h.prefixes.add? h.mode b = none
  escapes : h.encoding.Escapes escape

/-- One more prefix byte in front. -/
theorem Head.Spelled.cons {prefixes escape rest : List UInt8}
    (hadd : p.add? h.mode b = some p') (hcount : ¬p'.count > Prefixes.maxCount)
    (hs : h.Spelled p' prefixes escape rest) : h.Spelled p (b :: prefixes) escape rest where
  prefixes_eq := by
    rw [List.foldlM_cons, hadd]
    exact hs.prefixes_eq
  count_eq := by
    rw [hs.count_eq, Prefixes.add?_count hadd, List.length_cons]
    omega
  count_le _ := hs.count_le (Nat.le_of_not_gt hcount)
  ended := hs.ended
  escapes := hs.escapes

theorem readHeadFrom_end_took {s u : Nat} {bs : List UInt8} (hadd : p.add? mode b = none)
    (hrun : readHeadFrom mode p ⟨s, u, b :: bs⟩ = .ok h t') :
    ∃ bytes, Tape.Took ⟨s, u, b :: bs⟩ t' bytes ∧ h.mode = mode ∧
      h.Spelled p [] bytes t'.rest := by
  cases hesc : Escape.ofBytes? mode (b :: bs) with
  | none =>
      rw [readHeadFrom_legacy hadd hesc] at hrun
      cases hrun
      exact ⟨[], .refl _, rfl, rfl, rfl, id, ⟨b, rfl, hadd⟩, rfl⟩
  | some escape =>
      rw [readHeadFrom_vector hadd hesc] at hrun
      obtain rfl := Escape.lead_of_ofBytes? hesc
      obtain ⟨bytes, htook, hescapes, hlead, hmode, hprefixes⟩ := readEscaped_took hrun
      refine ⟨bytes, htook, hmode, ?_, ?_, ?_, ⟨escape.lead, ?_, ?_⟩, hescapes⟩
      · rw [hprefixes]; rfl
      · rw [hprefixes]; rfl
      · rw [hprefixes]; exact id
      · rw [List.head?_append, hlead]; rfl
      · rw [hprefixes, hmode]; exact hadd

theorem readHeadFrom_took (mode : Width) (p : Prefixes) {s u : Nat} {bs : List UInt8}
    (hrun : readHeadFrom mode p ⟨s, u, bs⟩ = .ok h t') :
    ∃ prefixes escape, Tape.Took ⟨s, u, bs⟩ t' (prefixes ++ escape) ∧ h.mode = mode ∧
      h.Spelled p prefixes escape t'.rest := by
  induction bs generalizing p u with
  | nil => cases hrun
  | cons b bs ih =>
      cases hadd : p.add? mode b with
      | none =>
          obtain ⟨bytes, htook, hmode, hs⟩ := readHeadFrom_end_took hadd hrun
          exact ⟨[], bytes, htook, hmode, hs⟩
      | some p' =>
          by_cases hcount : p'.count > Prefixes.maxCount
          · rw [readHeadFrom_excessive hadd hcount] at hrun
            cases hrun
          · rw [readHeadFrom_add hadd hcount] at hrun
            obtain ⟨prefixes, escape, htook, rfl, hs⟩ := ih p' hrun
            exact ⟨b :: prefixes, escape, htook.cons, rfl, hs.cons hadd hcount⟩

theorem readOpcode_took {o : Opcode} (hrun : readOpcode h t = .ok o t') :
    t.Took t' o.bytes ∧ 1 ≤ o.bytes.length ∧ o.bytes.length ≤ 3 := by
  obtain ⟨b, t₁, hb, hrest⟩ := of_bind_ok hrun
  have htook := byte_took hb
  split at hrest
  · cases hrest
    exact ⟨htook, by simp, by simp⟩
  · split at hrest
    · cases hrest
      exact ⟨htook, by simp, by simp⟩
    · obtain ⟨c, t₂, hc, hrest⟩ := of_bind_ok hrest
      have htook := htook.trans (byte_took hc)
      split at hrest
      · obtain ⟨d, t₃, hd, hpure⟩ := of_bind_ok hrest
        cases hpure
        exact ⟨htook.trans (byte_took hd), by simp, by simp⟩
      · split at hrest
        · obtain ⟨d, t₃, hd, hpure⟩ := of_bind_ok hrest
          cases hpure
          exact ⟨htook.trans (byte_took hd), by simp, by simp⟩
        · cases hrest
          exact ⟨htook, by simp, by simp⟩

/-- What a frame owes to the choice of its row. -/
structure Frame.Chosen (f : Frame) : Prop where
  mem : f.row ∈ candidates f.head.encoding f.opcode.map f.opcode.byte
  modrm_isSome : f.modrm.isSome = f.row.needsModrm
  accepts : ∀ m, f.modrm = some m → f.row.pattern.acceptsModrm m = true
  operandSize_eq : f.operandSize = operandSizeOf f.head f.row
  addressSize_eq : f.addressSize = addressSizeOf f.head

theorem Frame.of?_some {o : Opcode} {row : Row} {modrm : Option UInt8} {f : Frame}
    (hf : Frame.of? h o row modrm = some f) :
    f.head = h ∧ f.opcode = o ∧ f.row = row ∧ f.modrm = modrm ∧
      f.operandSize = operandSizeOf h row ∧ f.addressSize = addressSizeOf h := by
  rw [Frame.of?] at hf
  split at hf
  · obtain ⟨_, -, rfl⟩ := Option.map_eq_some_iff.mp hf
    exact ⟨rfl, rfl, rfl, rfl, rfl, rfl⟩
  · cases hf

theorem Frame.of?_allows {o : Opcode} {row : Row} {modrm : Option UInt8} {f : Frame}
    (hf : Frame.of? h o row modrm = some f) :
    allowsFields h row modrm = true ∧
      vectorLengthOf? h row modrm = some (f.vectorLength, f.control) := by
  rw [Frame.of?] at hf
  split at hf
  · next hallows =>
      obtain ⟨_, hlength, rfl⟩ := Option.map_eq_some_iff.mp hf
      exact ⟨hallows, hlength⟩
  · cases hf

theorem readModrm_took {row : Row} {modrm : Option UInt8}
    (hrun : readModrm row t = .ok modrm t') :
    t.Took t' modrm.toList ∧ modrm.isSome = row.needsModrm ∧
      ∀ m, modrm = some m → t.rest.head? = some m := by
  rw [readModrm] at hrun
  split at hrun
  · next hneeds =>
      obtain ⟨m, hbyte, rfl⟩ := of_map_ok hrun
      have htook := byte_took (of_inOperand_ok hbyte)
      refine ⟨htook, hneeds.symm, ?_⟩
      rintro _ ⟨⟩
      rw [htook.rest_eq]
      rfl
  · next hneeds =>
      cases hrun
      refine ⟨.refl t, (Bool.eq_false_iff.mpr hneeds).symm, ?_⟩
      rintro _ ⟨⟩

theorem acceptsModrm_of_chooseRow {rows : List Row} {row : Row} {m : UInt8}
    (hc : chooseRow rows h (some m) = .ok row) : row.pattern.acceptsModrm m = true :=
  Pattern.acceptsModrm_of_accepts (of_chooseRow hc).2

theorem of_selectRow {o : Opcode} {f : Frame} (hrun : selectRow h o t = .ok f t') :
    ∃ row modrm, chooseRow (candidates h.encoding o.map o.byte) h t.rest.head? = .ok row ∧
      readModrm row t = .ok modrm t' ∧ Frame.of? h o row modrm = some f := by
  cases hchoose : chooseRow (candidates h.encoding o.map o.byte) h t.rest.head? with
  | error fault =>
      rw [selectRow_error hchoose] at hrun
      cases hrun
  | ok row =>
      rw [selectRow_ok hchoose] at hrun
      obtain ⟨modrm, t₁, hmodrm, hframe⟩ := of_bind_ok hrun
      cases hof : Frame.of? h o row modrm with
      | none =>
          rw [hof] at hframe
          cases hframe
      | some frame =>
          rw [hof] at hframe
          cases hframe
          exact ⟨row, modrm, rfl, hmodrm, hof⟩

theorem selectRow_took {o : Opcode} {f : Frame} (hrun : selectRow h o t = .ok f t') :
    t.Took t' f.modrm.toList ∧ f.head = h ∧ f.opcode = o ∧ f.Chosen := by
  obtain ⟨row, modrm, hchoose, hmodrm, hof⟩ := of_selectRow hrun
  obtain ⟨htook, hneeds, hnext⟩ := readModrm_took hmodrm
  obtain ⟨rfl, rfl, rfl, rfl, hoperand, haddress⟩ := Frame.of?_some hof
  refine ⟨htook, rfl, rfl, chooseRow_mem hchoose, hneeds, ?_, hoperand, haddress⟩
  intro m hm
  rw [hnext m hm] at hchoose
  exact acceptsModrm_of_chooseRow hchoose

theorem selectRow_acceptsHead {o : Opcode} {f : Frame} (hrun : selectRow h o t = .ok f t') :
    f.row.pattern.acceptsHead f.head = true := by
  obtain ⟨row, modrm, hchoose, -, hof⟩ := of_selectRow hrun
  obtain ⟨rfl, -, rfl, -⟩ := Frame.of?_some hof
  exact Pattern.acceptsHead_of_accepts (of_chooseRow hchoose).2

theorem Head.Spelled.of_append {prefixes escape opcode rest : List UInt8}
    (hpos : 1 ≤ opcode.length) (hs : h.Spelled p prefixes escape (opcode ++ rest)) :
    h.Spelled p prefixes escape opcode where
  prefixes_eq := hs.prefixes_eq
  count_eq := hs.count_eq
  count_le := hs.count_le
  ended := by
    obtain ⟨b, hb, hadd⟩ := hs.ended
    refine ⟨b, ?_, hadd⟩
    cases opcode with
    | nil => cases hpos
    | cons c cs =>
        rw [List.head?_append] at hb ⊢
        exact hb
  escapes := hs.escapes

/-- The stages of a frame. -/
theorem of_readFrame {f : Frame} (hrun : readFrame mode t = .ok f t') :
    ∃ t₁ t₂, readHead mode t = .ok f.head t₁ ∧ readOpcode f.head t₁ = .ok f.opcode t₂ ∧
      selectRow f.head f.opcode t₂ = .ok f t' := by
  obtain ⟨h, t₁, hhead, hselect⟩ := of_bind_ok hrun
  obtain ⟨o, t₂, hopcode, hrow⟩ := of_bind_ok hselect
  obtain ⟨-, rfl, rfl, -⟩ := selectRow_took hrow
  exact ⟨t₁, t₂, hhead, hopcode, hrow⟩

/-- The bytes of a frame, stage by stage. -/
theorem readFrame_took {f : Frame} (hrun : readFrame mode t = .ok f t') :
    ∃ prefixes escape,
      t.Took t' (prefixes ++ escape ++ f.opcode.bytes ++ f.modrm.toList) ∧
      f.head.mode = mode ∧ f.head.Spelled {} prefixes escape f.opcode.bytes ∧
      1 ≤ f.opcode.bytes.length ∧ f.opcode.bytes.length ≤ 3 ∧ f.Chosen := by
  obtain ⟨t₁, t₂, hhead, hopcode, hrow⟩ := of_readFrame hrun
  obtain ⟨prefixes, escape, htook₁, hmode, hspelled⟩ := readHeadFrom_took mode {} hhead
  obtain ⟨htook₂, hpos, hle⟩ := readOpcode_took hopcode
  obtain ⟨htook₃, -, -, hchosen⟩ := selectRow_took hrow
  rw [htook₂.rest_eq] at hspelled
  exact ⟨prefixes, escape, (htook₁.trans htook₂).trans htook₃, hmode, hspelled.of_append hpos, hpos,
    hle, hchosen⟩

theorem readFrame_chosen {f : Frame} (hrun : readFrame mode t = .ok f t') :
    f.head.mode = mode ∧ f.Chosen := by
  obtain ⟨-, -, -, hmode, -, -, -, hchosen⟩ := readFrame_took hrun
  exact ⟨hmode, hchosen⟩

/-- The row of a frame allows the payload fields, and they make its vector length and control. -/
theorem readFrame_allows {f : Frame} (hrun : readFrame mode t = .ok f t') :
    allowsFields f.head f.row f.modrm = true ∧
      vectorLengthOf? f.head f.row f.modrm = some (f.vectorLength, f.control) := by
  obtain ⟨t₁, t₂, -, -, hrow⟩ := of_readFrame hrun
  obtain ⟨row, modrm, -, -, hof⟩ := of_selectRow hrow
  obtain ⟨-, -, rfl, rfl, -, -⟩ := Frame.of?_some hof
  exact Frame.of?_allows hof

end MachineCode.X86
