import MachineCode.X86.Frame

/-!
# Rows that share an opcode

The index of the encoding table gives the rows of an encoding, a map and an
opcode byte. Two facts about those rows keep the look-ahead of the decoder
harmless, and both are facts about the whole table.

Rows that share an opcode agree on whether a ModRM byte follows. So the byte
behind the opcode, which is looked at before the row is known, is either part of
the instruction whatever it is, or has no say in the choice. Comparing all pairs
of rows would take a few million steps; instead the opcodes of either kind are
collected in one number, a bit an opcode, and the two numbers have no bit in
common.

The bytes that begin the vector encodings in some modes are ordinary opcodes in
others. Each of these has a row, and all its rows are selected by the ModRM byte,
so the byte that tells the two readings apart is needed in either of them.
-/

namespace MachineCode.X86

theorem shelf_lt (encoding : Encoding) (map : OpcodeMap) : shelf encoding map < 28 := by
  cases encoding <;> cases map <;> decide

theorem shelf_inj {encoding encoding' : Encoding} {map map' : OpcodeMap}
    (h : shelf encoding map = shelf encoding' map') : encoding = encoding' ∧ map = map' := by
  have hmap : ∀ m : OpcodeMap, m.ctorIdx < 7 := by
    intro m
    cases m <;> decide
  have hlt := hmap map
  have hlt' := hmap map'
  rw [shelf, shelf] at h
  have he : encoding.ctorIdx = encoding'.ctorIdx := by omega
  have hm : map.ctorIdx = map'.ctorIdx := by omega
  constructor
  · rw [← Encoding.ofNat_ctorIdx encoding, he, Encoding.ofNat_ctorIdx]
  · rw [← OpcodeMap.ofNat_ctorIdx map, hm, OpcodeMap.ofNat_ctorIdx]

/-- The index holds the rows of the table in their order. -/
theorem candidates_eq (encoding : Encoding) (map : OpcodeMap) (opcode : UInt8) :
    candidates encoding map opcode =
      (shelfRows (shelf encoding map)).filter fun r => r.pattern.coversOpcode opcode := by
  have hshelf := shelf_lt encoding map
  have hopcode : opcode.toNat < 256 := opcode.toNat_lt
  simp [candidates, tableIndex, Array.getD_eq_getD_getElem?, hshelf, hopcode]

theorem mem_candidates {encoding : Encoding} {map : OpcodeMap} {opcode : UInt8} {r : Row} :
    r ∈ candidates encoding map opcode ↔
      r ∈ table ∧ r.pattern.encoding = encoding ∧ r.pattern.map = map ∧
        r.pattern.coversOpcode opcode = true := by
  rw [candidates_eq, shelfRows, List.mem_filter, List.mem_filter, beq_iff_eq]
  constructor
  · rintro ⟨⟨hmem, hshelf⟩, hcovers⟩
    obtain ⟨henc, hmap⟩ := shelf_inj hshelf
    exact ⟨hmem, henc, hmap, hcovers⟩
  · rintro ⟨hmem, rfl, rfl, hcovers⟩
    exact ⟨⟨hmem, rfl⟩, hcovers⟩

/-- The bit of an encoding, a map and an opcode byte. -/
def opcodeBit (encoding : Encoding) (map : OpcodeMap) (opcode : UInt8) : Nat :=
  256 * shelf encoding map + opcode.toNat

/-- The bits of the opcodes that a pattern covers. -/
def Pattern.opcodeBits (p : Pattern) : Nat :=
  (if p.plusReg then 0xff <<< (p.opcode &&& 0xf8).toNat else 1 <<< p.opcode.toNat)
    <<< (256 * shelf p.encoding p.map)

/-- The bits of the opcodes that some rows cover. -/
def opcodeBits (rows : List Row) : Nat :=
  rows.foldr (fun r bits => r.pattern.opcodeBits ||| bits) 0

set_option maxRecDepth 2000 in
/-- Without its low three bits, a byte is a multiple of eight. -/
theorem and_f8 (b : UInt8) : (b &&& 0xf8).toNat = 8 * (b.toNat / 8) := by
  have h : ∀ n < 256, n &&& 248 = 8 * (n / 8) := by decide
  exact h b.toNat b.toNat_lt

theorem Pattern.testBit_opcodeBits {p : Pattern} {opcode : UInt8}
    (h : p.coversOpcode opcode = true) :
    p.opcodeBits.testBit (opcodeBit p.encoding p.map opcode) = true := by
  rw [opcodeBits, opcodeBit, Nat.testBit_shiftLeft, Nat.add_sub_cancel_left]
  rw [coversOpcode] at h
  simp only [ge_iff_le, Nat.le_add_right, decide_true, Bool.true_and]
  split at h
  · next hreg =>
      have hbase : opcode &&& 0xf8 = p.opcode &&& 0xf8 := eq_of_beq h
      rw [if_pos hreg, ← hbase, and_f8, Nat.testBit_shiftLeft]
      have hbits : ∀ i < 8, Nat.testBit 0xff i = true := by decide
      rw [hbits _ (by omega), Bool.and_true, decide_eq_true_eq]
      omega
  · next hreg =>
      have heq : opcode = p.opcode := eq_of_beq h
      rw [if_neg hreg, ← heq, Nat.testBit_shiftLeft, Nat.sub_self]
      simp

theorem testBit_opcodeBits {rows : List Row} {r : Row} {i : Nat} (hmem : r ∈ rows)
    (h : r.pattern.opcodeBits.testBit i = true) : (opcodeBits rows).testBit i = true := by
  induction rows with
  | nil => cases hmem
  | cons x xs ih =>
      rw [opcodeBits, List.foldr_cons, Nat.testBit_or, Bool.or_eq_true]
      rcases List.mem_cons.mp hmem with rfl | hmem
      · exact .inl h
      · exact .inr (ih hmem)

/-- No opcode has rows with a ModRM byte and rows without one. -/
theorem opcodeBits_needsModrm :
    opcodeBits (table.filter fun r => r.needsModrm) &&&
      opcodeBits (table.filter fun r => !r.needsModrm) = 0 := by
  decide +kernel

theorem needsModrm_of_mem_candidates {encoding : Encoding} {map : OpcodeMap} {opcode : UInt8}
    {r r' : Row} (hr : r ∈ candidates encoding map opcode)
    (hr' : r' ∈ candidates encoding map opcode) (h : r.needsModrm = true) :
    r'.needsModrm = true := by
  obtain ⟨hmem, rfl, rfl, hcovers⟩ := mem_candidates.mp hr
  obtain ⟨hmem', henc, hmap, hcovers'⟩ := mem_candidates.mp hr'
  cases h' : r'.needsModrm with
  | true => rfl
  | false =>
      have hbit := testBit_opcodeBits (List.mem_filter.mpr ⟨hmem, h⟩)
        (Pattern.testBit_opcodeBits hcovers)
      have hout : r' ∈ table.filter fun r => !r.needsModrm :=
        List.mem_filter.mpr ⟨hmem', by rw [h']; rfl⟩
      have hbit' := testBit_opcodeBits hout (Pattern.testBit_opcodeBits hcovers')
      rw [henc, hmap] at hbit'
      have hand := congrArg (fun bits => Nat.testBit bits
        (opcodeBit r.pattern.encoding r.pattern.map opcode)) opcodeBits_needsModrm
      simp only [Nat.testBit_and, hbit, hbit', Bool.and_true, Nat.zero_testBit] at hand
      cases hand

/-- Rows that share an opcode agree on whether a ModRM byte follows. -/
theorem needsModrm_eq_of_mem_candidates {encoding : Encoding} {map : OpcodeMap} {opcode : UInt8}
    {r r' : Row} (hr : r ∈ candidates encoding map opcode)
    (hr' : r' ∈ candidates encoding map opcode) : r.needsModrm = r'.needsModrm :=
  Bool.eq_iff_iff.mpr
    ⟨needsModrm_of_mem_candidates hr hr', needsModrm_of_mem_candidates hr' hr⟩

/-- The bytes that are escapes or ordinary opcodes. -/
def escapeBytes : List UInt8 := [0xc4, 0xc5, 0x62, 0x8f]

theorem escapeBytes_table :
    (escapeBytes.all fun b =>
      let rows := table.filter fun r => decide (r.pattern.encoding = .legacy) &&
        decide (r.pattern.map = .primary) && r.pattern.coversOpcode b
      !rows.isEmpty && rows.all fun r => r.pattern.selectsOnModrm) = true := by
  decide +kernel

theorem candidates_escape {b : UInt8} (hb : b ∈ escapeBytes) :
    (∃ r, r ∈ candidates .legacy .primary b) ∧
      ∀ r ∈ candidates .legacy .primary b, r.pattern.selectsOnModrm = true := by
  have hrows := List.all_eq_true.mp escapeBytes_table b hb
  rw [Bool.and_eq_true, Bool.not_eq_true', List.isEmpty_eq_false_iff_exists_mem,
    List.all_eq_true] at hrows
  simp only [List.mem_filter, Bool.and_eq_true, decide_eq_true_eq] at hrows
  obtain ⟨⟨r, hmem, ⟨henc, hmap⟩, hcovers⟩, hall⟩ := hrows
  refine ⟨⟨r, mem_candidates.mpr ⟨hmem, henc, hmap, hcovers⟩⟩, fun x hx => ?_⟩
  obtain ⟨hmem, henc, hmap, hcovers⟩ := mem_candidates.mp hx
  exact hall x ⟨hmem, ⟨henc, hmap⟩, hcovers⟩

end MachineCode.X86
