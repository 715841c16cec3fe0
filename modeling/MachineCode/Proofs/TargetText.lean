import MachineCode.Proofs.Mips.Relocation
import MachineCode.Proofs.Mips.Widths
import MachineCode.Proofs.X86.BranchTargets

/-!
# The text of targets

A target is cut twice: when it is computed, to the width that addresses have, and
when it is written, to the size that its operand has. The text shows the target in
full as long as the second cut is no narrower than the first.

For words both follow the width of the general registers. For x86 the first
follows the operand size and the mode, and the second the operand size alone,
which is why branches have an operand size of 64 bits in 64-bit mode unless it is
narrowed. One row does without: `xbegin` keeps a target of 64 bits there and
writes 32 of them.
-/

namespace MachineCode

open Bytes Read

/-- Whether the text has a piece for each operand, and which one it has at an index. -/
def Instruction.Shows (i : Instruction) (k : Nat) (piece : String) : Prop :=
  ∃ pieces : List String, pieces.length = i.operands.length ∧
    i.operandText = ", ".intercalate pieces ∧ pieces[k]? = some piece

/-- Whether the operand at an index is a place in the program, by the row that the bytes of the
instruction choose. -/
def Engine.TargetAt (e : Engine) (i : Instruction) (k : Nat) : Prop :=
  match e.architecture with
  | .x86 => ∃ f t slot, X86.readFrame e.mode.width { rest := i.bytes } = .ok f t ∧
      f.row.slots[k]? = some slot ∧ slot.source = .rel
  | .mips => ∃ w t row slot, Mips.readWord (.ofMode e.mode) { rest := i.bytes } = .ok w t ∧
      (Mips.Variant.ofMode e.mode).row? w = some row ∧
      row.slots[k]? = some slot ∧ slot.source.isTarget = true

/-- Whether the text of an operand drops bits of a target. -/
def Engine.cutsTarget (e : Engine) (i : Instruction) (o : Operand) : Bool :=
  decide (i.mnemonic = .x86 .xbegin ∧ e.mode.width = .w64 ∧ o.size = 32)

variable {address : UInt64} {t t' : Tape}

namespace X86

variable {f : Frame} {slot : Slot} {mode : Width} {value : Int64}

theorem control_of_legacy (hrun : readFrame mode t = .ok f t')
    (hlegacy : f.head.encoding = .legacy) : f.control = .none := by
  obtain ⟨-, hlength⟩ := readFrame_allows hrun
  rw [vectorLengthOf?, hlegacy] at hlength
  exact (Prod.mk.inj (Option.some.inj hlength)).2.symm

theorem decorate_of_legacy (hlegacy : f.head.encoding = .legacy) (operands : List Operand) :
    decorate f operands = operands := by
  rw [decorate.eq_def, Frame.isEvex, hlegacy]
  rfl

theorem Slot.Gives.of_rel {a : Option Address} {o : Operand} (ho : slot.Gives f a o)
    (hrel : slot.source = .rel) (hkind : o.kind = .immediate value) :
    o = .ofImmediate value f.operandSize.bits := by
  cases ho with
  | target value' =>
      cases hkind
      rfl
  | immediate value' size hsource => exact absurd hrel hsource
  | _ => cases hkind

theorem operands_of_target {body : Body} (hslots : f.row.slots = [slot])
    (hrel : slot.source = .rel) (hlegacy : f.head.encoding = .legacy)
    (hrun : readBody f address t = .ok body t')
    (hkinds : body.operands.map Operand.kind = [.immediate value]) :
    body.operands = [.ofImmediate value f.operandSize.bits] := by
  obtain ⟨_, _, _, operands, -, hbody, hgiven⟩ := given_of_readBody hrun
  rw [decorate_of_legacy hlegacy] at hbody
  rw [← hbody, hslots] at hgiven
  obtain ⟨o, honly⟩ : ∃ o, body.operands = [o] := by
    rw [← List.length_eq_one_iff, ← List.length_map Operand.kind, hkinds]
    rfl
  rw [honly] at hgiven hkinds ⊢
  obtain ⟨only, honlySlot, hgives⟩ := hgiven o List.mem_cons_self
  obtain rfl := List.mem_singleton.mp honlySlot
  rw [hgives.of_rel hrel (List.singleton_inj.mp hkinds)]

theorem operandsText_target (hslots : f.row.slots = [slot]) (hcontrol : f.control = .none)
    (value : Int64) (size : UInt16) :
    operandsText f [.ofImmediate value size] = Text.compact (lowBits value size) := by
  have hplain : operandText f.addressSize (.ofImmediate value size) =
      Text.compact (lowBits value size) := by
    show Text.compact (lowBits value size) ++ "" ++ "" = _
    rw [String.append_empty, String.append_empty]
  rw [operandsText.eq_def, hslots, List.map_singleton, hplain, hcontrol]
  dsimp only
  split
  · next htexts => cases htexts
  · exact String.append_empty

/-- The rows with a branch displacement are of the legacy encoding, and all but one have an operand
size of 64 bits in 64-bit mode. -/
theorem targetRows_table : ∀ r ∈ table, r.hasSource .rel = true →
    r.pattern.encoding = .legacy ∧ (r.sizeRule = .force64 ∨ r.naming = .always .xbegin) := by
  decide +kernel

theorem operandSizeOf_force64 {h : Head} {row : Row} (hlegacy : h.encoding = .legacy)
    (hlong : h.mode = .w64) (hrow : row.sizeRule = .force64) : operandSizeOf h row = .w64 := by
  rw [operandSizeOf, if_neg (not_not_intro hlegacy), hlong, decide_eq_true hrow]
  rfl

theorem lowBits_bits (value : Int64) (w : Width) :
    lowBits value w.bits = value.toUInt64.toNat % 2 ^ w.bits.toNat := by
  cases w <;> exact BitVec.toNat_setWidth _ _

/-- What is written of a target. -/
theorem lowBits_target (hf : f.Chosen) (hrow : f.row.hasSource .rel = true)
    (hvalue : value.toUInt64.toNat < 2 ^ f.targetBits) :
    lowBits value f.operandSize.bits =
      if f.mnemonic = .xbegin ∧ f.head.mode = .w64 ∧ f.operandSize.bits = 32 then
        value.toUInt64.toNat % 2 ^ 32
      else value.toUInt64.toNat := by
  obtain ⟨hlegacy, hrule⟩ := targetRows_table f.row (mem_candidates.mp hf.mem).1 hrow
  rw [(mem_candidates.mp hf.mem).2.1] at hlegacy
  rw [lowBits_bits]
  rw [Frame.targetBits] at hvalue
  cases hsize : f.operandSize with
  | w16 =>
      rw [hsize, if_pos rfl] at hvalue
      rw [if_neg fun hcut => absurd hcut.2.2 (by decide)]
      exact Nat.mod_eq_of_lt hvalue
  | w64 =>
      rw [if_neg fun hcut => absurd hcut.2.2 (by decide)]
      exact Nat.mod_eq_of_lt value.toUInt64.toNat_lt
  | w32 =>
      rw [hsize, if_neg (by decide)] at hvalue
      by_cases hlong : f.head.mode = .w64
      · -- every other row would have made the operand size 64 bits
        have hname : f.mnemonic = .xbegin := by
          rcases hrule with hforce | hnaming
          · rw [hf.operandSize_eq, operandSizeOf_force64 hlegacy hlong hforce] at hsize
            cases hsize
          · rw [Frame.mnemonic, hnaming]
        rw [if_pos ⟨hname, hlong, rfl⟩]
        rfl
      · rw [if_neg fun hcut => hlong hcut.2.1]
        rw [Width.isLong, decide_eq_false hlong] at hvalue
        exact Nat.mod_eq_of_lt hvalue

theorem shows_target {e : Engine} {bytes : List UInt8} {offset next k : Nat}
    {i : Instruction} (he : e.architecture = .x86)
    (h : e.decodeOne bytes offset address = .ok (i, next))
    (hframe : readFrame e.mode.width { rest := i.bytes } = .ok f t)
    (hk : f.row.slots[k]? = some slot) (hrel : slot.source = .rel) :
    ∃ o value, i.operands[k]? = some o ∧ o.kind = .immediate value ∧
      i.Shows k (Text.compact
        (if e.cutsTarget i o then value.toUInt64.toNat % 2 ^ 32 else value.toUInt64.toNat)) := by
  obtain ⟨f', body, t₁, hframe', hbody, hi, htarget⟩ := target_of_decodeOne he h
  cases hframe'.symm.trans hframe
  obtain ⟨hmode, hf⟩ := readFrame_chosen hframe
  have hslot := List.mem_of_getElem? hk
  have hslots := hf.regular.slots_of_rel hslot hrel
  obtain ⟨field, value, hends⟩ := htarget slot hslot hrel
  have hrow : f.row.hasSource .rel = true :=
    List.any_eq_true.mpr ⟨slot, hslot, decide_eq_true hrel⟩
  have hlegacy : f.head.encoding = .legacy := by
    rw [← (mem_candidates.mp hf.mem).2.1]
    exact (targetRows_table f.row (mem_candidates.mp hf.mem).1 hrow).1
  have hoperands : i.operands = body.operands := by rw [hi]; rfl
  have honly := operands_of_target hslots hrel hlegacy hbody (hoperands ▸ hends.kinds_eq)
  obtain rfl : k = 0 := by
    by_contra hpos
    rw [hslots, List.getElem?_eq_none (Nat.one_le_iff_ne_zero.mpr hpos)] at hk
    cases hk
  have hcut : e.cutsTarget i (.ofImmediate value f.operandSize.bits) =
      decide (f.mnemonic = .xbegin ∧ f.head.mode = .w64 ∧ f.operandSize.bits = 32) := by
    have hname : i.mnemonic = .x86 f.mnemonic := by rw [hi]; rfl
    simp only [Engine.cutsTarget, hname, ← hmode, MachineCode.Mnemonic.x86.injEq]
    rfl
  rw [hoperands, honly]
  refine ⟨_, value, rfl, rfl, [Text.compact (lowBits value f.operandSize.bits)], ?_, ?_, ?_⟩
  · rw [hoperands, honly]
    rfl
  · have htext : i.operandText = operandsText f body.operands := by rw [hi]; rfl
    rw [htext, honly, operandsText_target hslots (control_of_legacy hframe hlegacy)]
    rfl
  · rw [lowBits_target hf hrow hends.value_lt, hcut]
    simp only [decide_eq_true_eq]
    rfl

end X86

namespace Mips

variable {v : Variant} {w : Word} {slot : Slot} {o : Operand}

theorem operand?_target (htarget : slot.source.isTarget = true)
    (h : v.operand? address w slot = some o) : ∃ x, o = v.targetOperand x := by
  cases hsource : slot.source <;> rw [hsource] at htarget <;> cases htarget <;>
    simp only [Variant.operand?, hsource] at h <;> cases h <;> exact ⟨_, rfl⟩

theorem toNat_wrap (v : Variant) (x : UInt64) :
    (v.wrap x).toInt64.toUInt64.toNat < 2 ^ v.addressBits := by
  rw [Variant.wrap_eq, toNat_lowAddress]
  exact Nat.mod_lt _ (Nat.two_pow_pos _)

theorem immediateText_target {source : Source} (htarget : source.isTarget = true) (v : Variant)
    (x : UInt64) :
    immediateText source v.generalBits (v.wrap x).toInt64 =
      Text.compact (v.wrap x).toInt64.toUInt64.toNat := by
  have hraw : source ≠ .rawRd := by
    rintro rfl
    cases htarget
  have hlt := toNat_wrap v x
  rw [Variant.addressBits] at hlt
  rw [immediateText, if_neg hraw, if_pos htarget, Variant.generalBits]
  dsimp only
  cases hwide : v.wide with
  | true => rfl
  | false =>
      rw [hwide] at hlt
      rw [if_neg (by decide)]
      exact congrArg Text.compact (Nat.mod_eq_of_lt hlt)

theorem getElem?_of_mapM {α β : Type} {f : α → Option β} {xs : List α} {ys : List β} {k : Nat}
    {x : α} (h : xs.mapM f = some ys) (hk : xs[k]? = some x) :
    ∃ y, ys[k]? = some y ∧ f x = some y := by
  induction xs generalizing ys k with
  | nil => cases hk
  | cons x' xs ih =>
      obtain ⟨y, rest, hy, hrest, rfl⟩ := mapM_cons_some h
      cases k with
      | zero =>
          cases hk
          exact ⟨y, rfl, hy⟩
      | succ k =>
          obtain ⟨z, hz, hfz⟩ := ih hrest hk
          exact ⟨z, hz, hfz⟩

/-- A row with a target has no trap code, so no operand of it is left out of the text. -/
theorem codeless_table : ∀ r ∈ table, r.slots.any (fun s => s.source.isTarget) = true →
    ∀ s ∈ r.slots, s.source ≠ .code := by
  decide +kernel

theorem operandsText_codeless {slots : List Slot} (hcode : ∀ s ∈ slots, s.source ≠ .code)
    (operands : List Operand) :
    operandsText slots operands =
      ", ".intercalate ((slots.zip operands).map fun p => operandText p.1.source p.2) := by
  have hall : (slots.zip operands).filter (fun p => !isZeroCode p.1.source p.2) =
      slots.zip operands := by
    refine List.filter_eq_self.mpr fun p hp => ?_
    rw [isZeroCode, decide_eq_false (hcode p.1 (List.of_mem_zip hp).1)]
    rfl
  exact congrArg (fun written => ", ".intercalate (written.map fun p => operandText p.1.source p.2))
    hall

theorem shows_target {e : Engine} {bytes : List UInt8} {offset next k : Nat} {i : Instruction}
    {row : Row} (he : e.architecture = .mips)
    (h : e.decodeOne bytes offset address = .ok (i, next))
    (hword : readWord (.ofMode e.mode) { rest := i.bytes } = .ok w t)
    (hrow : (Variant.ofMode e.mode).row? w = some row) (hk : row.slots[k]? = some slot)
    (htarget : slot.source.isTarget = true) :
    ∃ o value, i.operands[k]? = some o ∧ o.kind = .immediate value ∧
      i.Shows k (Text.compact
        (if e.cutsTarget i o then value.toUInt64.toNat % 2 ^ 32 else value.toUInt64.toNat)) := by
  obtain ⟨w', row', operands, t₁, -, hrun, hi, -⟩ := parts_of_decodeOne he h
  obtain ⟨hword₁, hrow', hoperands⟩ := of_readParts hrun
  obtain ⟨t₂, hword₂⟩ := (readWord_sequential _).run_taken hword₁
  have hbytes : i.bytes = (bytes.drop offset).take t₁.used := by rw [hi]; rfl
  rw [hbytes] at hword
  cases hword₂.symm.trans hword
  cases hrow'.symm.trans hrow
  obtain ⟨o, hok, hoperand⟩ := getElem?_of_mapM hoperands hk
  obtain ⟨x, rfl⟩ := operand?_target htarget hoperand
  have hcode := codeless_table row (selects_of_row? hrow).1
    (List.any_eq_true.mpr ⟨slot, List.mem_of_getElem? hk, htarget⟩)
  have hlength : row.slots.length = operands.length := by
    rw [← (operands?_bearings hoperands).1, Row.bearings, List.length_map]
  have hcut : e.cutsTarget i ((Variant.ofMode e.mode).targetOperand x) = false := by
    rw [hi]
    exact decide_eq_false fun hname => MachineCode.Mnemonic.noConfusion hname.1
  refine ⟨_, ((Variant.ofMode e.mode).wrap x).toInt64, by rw [hi]; exact hok, rfl, ?_⟩
  rw [hcut, hi]
  refine ⟨_, ?_, operandsText_codeless hcode operands, ?_⟩
  · rw [List.length_map, List.length_zip, hlength, Nat.min_self]
    rfl
  · have hzip : (row.slots.zip operands)[k]? =
        some (slot, (Variant.ofMode e.mode).targetOperand x) :=
      List.getElem?_zip_eq_some.mpr ⟨hk, hok⟩
    rw [List.getElem?_map, hzip]
    exact congrArg some (immediateText_target htarget _ x)

end Mips

theorem Engine.targetAt_x86Of64 {i : Instruction} {bytes : List UInt8} {slot : X86.Slot}
    (hbytes : i.bytes = bytes)
    (hread : (match X86.readFrame .w64 { rest := bytes } with
      | .ok f _ => some f.row.slots
      | .error _ _ => none) = some [slot])
    (hrel : slot.source = .rel) : x86Of64.TargetAt i 0 := by
  obtain ⟨f, t, hframe, hslots⟩ := X86.exists_frame hread
  refine ⟨f, t, slot, ?_, by rw [hslots]; rfl, hrel⟩
  rw [hbytes]
  exact hframe

/-- The text of a target is that of the operand's value, read without a sign. The one exception is
`xbegin` in 64-bit mode with an operand size of 32 bits, of whose target it is that of the low 32
bits. -/
theorem Engine.decodeOne_shows_target {e : Engine} {bytes : List UInt8} {offset next k : Nat}
    {i : Instruction} (h : e.decodeOne bytes offset address = .ok (i, next))
    (hk : e.TargetAt i k) :
    ∃ o value, i.operands[k]? = some o ∧ o.kind = .immediate value ∧
      i.Shows k (Text.compact
        (if e.cutsTarget i o then value.toUInt64.toNat % 2 ^ 32 else value.toUInt64.toNat)) := by
  rw [TargetAt] at hk
  cases he : e.architecture with
  | x86 =>
      rw [he] at hk
      obtain ⟨f, t, slot, hframe, hslot, hrel⟩ := hk
      exact X86.shows_target he h hframe hslot hrel
  | mips =>
      rw [he] at hk
      obtain ⟨w, t, row, slot, hword, hrow, hslot, htarget⟩ := hk
      exact Mips.shows_target he h hword hrow hslot htarget

/-- `jmp 0x100000006`, across the end of the first 4 GB. -/
theorem Engine.decodeOne_shows_target_jmp :
    ∃ i, x86Of64.decodeOne [0xeb, 0x06] 0 0xfffffffe = .ok (i, 2) ∧ x86Of64.TargetAt i 0 ∧
      i.Shows 0 "0x100000006" := by
  have hread : (x86Of64.decodeOne [0xeb, 0x06] 0 0xfffffffe).map
      (fun d => ((d.1.bytes, d.1.mnemonic, d.1.operands.map Operand.kind), d.2)) =
        .ok (([0xeb, 0x06], .x86 .jmp, [.immediate 0x100000006]), 2) ∧
      (match X86.readFrame .w64 { rest := [0xeb, 0x06] } with
        | .ok f _ => some f.row.slots
        | .error _ _ => none) = some [.rd .rel .b8] := by
    decide +kernel
  obtain ⟨i, next, hrun, hshown⟩ := exists_of_map hread.1
  simp only [Prod.mk.injEq] at hshown
  obtain ⟨⟨hbytes, hmnemonic, hkinds⟩, rfl⟩ := hshown
  have htarget : x86Of64.TargetAt i 0 := targetAt_x86Of64 hbytes hread.2 rfl
  obtain ⟨o, value, ho, hkind, hshows⟩ := decodeOne_shows_target hrun htarget
  have hcut : x86Of64.cutsTarget i o = false :=
    decide_eq_false fun hname => by rw [hmnemonic] at hname; cases hname.1
  obtain rfl : value = 0x100000006 := by
    have hfirst : (i.operands.map Operand.kind)[0]? = some (.immediate value) := by
      rw [List.getElem?_map, ho, ← hkind]
      rfl
    rw [hkinds] at hfirst
    cases hfirst
    rfl
  rw [hcut] at hshows
  exact ⟨i, hrun, htarget, hshows⟩

/-- `xbegin` with an empty displacement, in 64-bit mode at the end of the first 4 GB: the target is
`0x100000006`, and the text says `6`. -/
theorem Engine.exists_cut_target_xbegin :
    ∃ i, x86Of64.decodeOne [0xc7, 0xf8, 0, 0, 0, 0] 0 0x100000000 = .ok (i, 6) ∧
      x86Of64.TargetAt i 0 ∧ i.operands.map Operand.kind = [.immediate 0x100000006] ∧
      i.operandText = "6" ∧ ¬i.Shows 0 (Text.compact 0x100000006) := by
  have hread : (x86Of64.decodeOne [0xc7, 0xf8, 0, 0, 0, 0] 0 0x100000000).map
      (fun d => ((d.1.bytes, d.1.operands.map Operand.kind, d.1.operandText), d.2)) =
        .ok (([0xc7, 0xf8, 0, 0, 0, 0], [.immediate 0x100000006], "6"), 6) ∧
      (match X86.readFrame .w64 { rest := [0xc7, 0xf8, 0, 0, 0, 0] } with
        | .ok f _ => some f.row.slots
        | .error _ _ => none) = some [.rd .rel .z] := by
    decide +kernel
  obtain ⟨i, next, hrun, hshown⟩ := exists_of_map hread.1
  simp only [Prod.mk.injEq] at hshown
  obtain ⟨⟨hbytes, hkinds, htext⟩, rfl⟩ := hshown
  refine ⟨i, hrun, targetAt_x86Of64 hbytes hread.2 rfl, hkinds, htext, ?_⟩
  rintro ⟨pieces, hlength, hjoined, hpiece⟩
  -- the only piece is the whole text
  obtain ⟨piece, rfl⟩ : ∃ piece, pieces = [piece] := by
    rw [← List.length_eq_one_iff, hlength, ← List.length_map Operand.kind, hkinds]
    rfl
  have hsix : piece = "6" := hjoined.symm.trans htext
  cases hpiece
  revert hsix
  decide

end MachineCode
