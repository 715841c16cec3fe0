import MachineCode.Proofs.Bearing
import MachineCode.Proofs.Mips.Assembly
import MachineCode.Proofs.Runs

/-!
# Moving MIPS instructions

Branches and address computations name a place at some distance, jumps a place in
the region of the next word, and nothing else in a word depends on where it lies.
-/

namespace MachineCode.Mips

open Bytes Read

variable {v : Variant} {start dest : UInt64}

/-- The width of program addresses in bits. -/
def Variant.addressBits (v : Variant) : Nat :=
  if v.wide then 64 else 32

/-- The bearing of an operand with some source. -/
def Source.bearing (v : Variant) : Source → Bearing
  | .branch16 | .branch21 | .branch26 | .pc19 => .relative v.addressBits
  | .jump26 => .region v.addressBits
  | _ => .fixed

/-- The bearings of the operands of a row. -/
def Row.bearings (v : Variant) (r : Row) : List Bearing :=
  r.slots.map fun slot => slot.source.bearing v

theorem Variant.addressBits_le (v : Variant) : v.addressBits ≤ 64 := by
  rw [addressBits]
  split <;> decide

theorem Variant.wrap_eq (v : Variant) (address : UInt64) :
    (v.wrap address).toInt64 = lowAddress v.addressBits address := by
  rw [wrap, addressBits]
  split
  · exact lowAddress_64 _
  · exact lowAddress_and_32 _

/-- A target at some distance from a base that moves with the instruction. -/
theorem relocate_targetOperand {n : Nat} (v : Variant) (start dest base : UInt64)
    (offset : BitVec n) :
    (v.targetOperand (wordsFrom (start + base) offset)).relocate start dest
        (.relative v.addressBits) =
      v.targetOperand (wordsFrom (dest + base) offset) := by
  have hmove : (Bearing.relative v.addressBits).move start dest
      (v.wrap (wordsFrom (start + base) offset)).toInt64 =
        (v.wrap (wordsFrom (dest + base) offset)).toInt64 := by
    rw [Variant.wrap_eq, Variant.wrap_eq, Bearing.move, lowAddress_add v.addressBits_le,
      wordsFrom, wordsFrom]
    congr 1
    grind
  exact congrArg (Operand.ofImmediate · v.generalBits) hmove

/-- A region does not touch the bits of a place in it. -/
theorem lowAddress_inRegion (v : Variant) (base : UInt64) (index : BitVec 26) :
    (lowAddress v.addressBits (inRegion base index)).toUInt64 &&& 0x0fffffff =
      UInt64.ofNat (index.toNat * 4) := by
  have hbits : 2 ^ 28 ∣ 2 ^ v.addressBits := by
    refine Nat.pow_dvd_pow 2 ?_
    rw [Variant.addressBits]
    split <;> decide
  have hindex : (UInt64.ofNat (index.toNat * 4)).toNat = index.toNat * 4 := by
    rw [UInt64.toNat_ofNat']
    omega
  have hbase : (base &&& ~~~0x0fffffff).toNat % 2 ^ 28 = 0 := by
    have hmask : (~~~(0x0fffffff : UInt64)).toNat % 2 ^ 28 = 0 := by decide
    rw [UInt64.toNat_and, Nat.and_mod_two_pow, hmask, Nat.and_zero]
  rw [← UInt64.toNat_inj, UInt64.toNat_and, toNat_lowAddress]
  refine (Nat.and_two_pow_sub_one_eq_mod _ 28).trans ?_
  rw [Nat.mod_mod_of_dvd _ hbits, inRegion, UInt64.toNat_or, Nat.or_mod_two_pow, hbase,
    Nat.zero_or, hindex, Nat.mod_eq_of_lt (by omega)]

theorem relocate_regionOperand (v : Variant) (start dest : UInt64) (index : BitVec 26) :
    (v.targetOperand (inRegion (start + 4) index)).relocate start dest
        (.region v.addressBits) =
      v.targetOperand (inRegion (dest + 4) index) := by
  have hmove : (Bearing.region v.addressBits).move start dest
      (v.wrap (inRegion (start + 4) index)).toInt64 =
        (v.wrap (inRegion (dest + 4) index)).toInt64 := by
    rw [Variant.wrap_eq, Variant.wrap_eq, Bearing.move, lowAddress_inRegion, ← inRegion]
  exact congrArg (Operand.ofImmediate · v.generalBits) hmove

theorem operand?_relocate (v : Variant) (start dest : UInt64) (w : Word) (slot : Slot) :
    v.operand? dest w slot =
      (v.operand? start w slot).map (Operand.relocate start dest (slot.source.bearing v)) := by
  obtain ⟨source, access⟩ := slot
  cases source
  case branch16 | branch21 | branch26 =>
    exact congrArg some (relocate_targetOperand v start dest 4 _).symm
  case pc19 =>
    have hmoved := relocate_targetOperand v start dest 0 (field 0 19 w)
    rw [UInt64.add_zero, UInt64.add_zero] at hmoved
    exact congrArg some hmoved.symm
  case jump26 =>
    exact congrArg some (relocate_regionOperand v start dest _).symm
  case insertSize =>
    simp only [Variant.operand?, Source.bearing]
    split <;> rfl
  all_goals rfl

theorem operands?_relocate (v : Variant) (start dest : UInt64) (w : Word) (row : Row) :
    v.operands? dest w row =
      (v.operands? start w row).map
        (List.zipWith (Operand.relocate start dest) (row.bearings v)) := by
  rw [Variant.operands?, Variant.operands?, Row.bearings]
  induction row.slots with
  | nil => rfl
  | cons slot slots ih =>
      rw [List.mapM_cons, List.mapM_cons, ih, operand?_relocate v start dest]
      cases v.operand? start w slot with
      | none => rfl
      | some o =>
          cases slots.mapM (v.operand? start w) with
          | none => rfl
          | some os => rfl

/-- Every slot gives one operand, and only immediates bear on the address. -/
theorem operands?_bearings {address : UInt64} {w : Word} {row : Row} {ops : List Operand}
    (h : v.operands? address w row = some ops) :
    (row.bearings v).length = ops.length ∧
      ∀ p ∈ (row.bearings v).zip ops, p.1 ≠ .fixed → ∃ value, p.2.kind = .immediate value := by
  have hslot : ∀ (slot : Slot) (o : Operand), v.operand? address w slot = some o →
      slot.source.bearing v ≠ .fixed → ∃ value, o.kind = .immediate value := by
    rintro ⟨source, access⟩ o ho hne
    cases source
    case branch16 | branch21 | branch26 | pc19 | jump26 =>
      cases ho
      exact ⟨_, rfl⟩
    all_goals exact absurd rfl hne
  rw [Variant.operands?] at h
  rw [Row.bearings]
  generalize row.slots = slots at h ⊢
  induction slots generalizing ops with
  | nil =>
      cases h
      exact ⟨rfl, fun p hp => (by cases hp)⟩
  | cons slot slots ih =>
      obtain ⟨o, os, ho, hos, rfl⟩ := mapM_cons_some h
      obtain ⟨hlen, himmediate⟩ := ih hos
      refine ⟨congrArg (· + 1) hlen, fun p hp hne => ?_⟩
      rcases List.mem_cons.mp hp with rfl | hp
      · exact hslot slot o ho hne
      · exact himmediate p hp hne

/-- The parts of an instruction elsewhere. -/
theorem readParts_relocate (v : Variant) (start dest : UInt64) (t : Tape) :
    readParts v dest t =
      ((fun parts => (parts.1, parts.2.1,
        List.zipWith (Operand.relocate start dest) (parts.2.1.bearings v) parts.2.2)) <$>
          readParts v start) t := by
  simp only [readParts, map_bind]
  refine congrFun (congrArg (readWord v >>= ·) (funext fun w => ?_)) t
  cases v.row? w with
  | none => rfl
  | some row =>
      simp only [operands?_relocate v start dest]
      cases v.operands? start w row <;> rfl

theorem instructionOf_relocates {w : Word} {row : Row} {ops : List Operand}
    (h : v.operands? start w row = some ops) (dest : UInt64) (bytes : List UInt8)
    (detail : Bool) :
    (instructionOf w row ops bytes start detail).Relocates
      (instructionOf w row (List.zipWith (Operand.relocate start dest) (row.bearings v) ops)
        bytes dest detail)
      (row.bearings v) start dest := by
  obtain ⟨hlen, himmediate⟩ := operands?_bearings h
  refine ⟨rfl, hlen, rfl, himmediate, fun hfixed => ?_⟩
  show operandsText row.slots _ = operandsText row.slots _
  rw [zipWith_relocate_fixed hfixed hlen]

end MachineCode.Mips
