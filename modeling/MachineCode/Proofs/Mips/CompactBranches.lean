import MachineCode.Proofs.Mips.RowChoice
import MachineCode.Proofs.Mips.Words

/-!
# Compact branches of release 6

Release 6 gave six opcodes to compact branches, three or four branches to an
opcode, and tells them apart by the register fields. There are two ways to do so:
by which of the fields are zero or equal, and by which of them is greater. Either
way the rows of an opcode leave nothing to chance, because a row with a field
fixed to zero fixes more bits than a row that only relates the fields, and rows
that relate the fields exclude each other.

An opcode has the rows of its family and no others, which is evaluated. What the
rows of a family select is then a matter of the two fields alone.
-/

namespace MachineCode

open Mips

namespace Mips

open Row Table

variable {v : Variant} {w : Word} {r : Row} {m : Mnemonic} {slots : List Slot}
  {opcode : BitVec 6}

/-- A branch, and the fields that it takes as registers. -/
structure CompactBranch where
  mnemonic : Mnemonic
  registers : List (BitVec 5)
deriving DecidableEq

/-- How an opcode tells its branches apart. -/
inductive Family where
  /-- By which fields are zero or equal. `rt` may be zero only if there is a branch for that. -/
  | byEquality (rtZero : Option Mnemonic) (rsZero equal unlike : Mnemonic)
  /-- By whether `rs` reaches `rt`, and if it does not, by whether it is zero. -/
  | byOrder (overflow rsZero below : Mnemonic)

/-- The branch that two register fields select. -/
def Family.branch? (rs rt : BitVec 5) : Family → Option CompactBranch
  | byEquality rtZero rsZero equal unlike =>
    if rt = 0 then rtZero.map fun m => ⟨m, [rs]⟩
    else if rs = 0 then some ⟨rsZero, [rt]⟩
    else if rs = rt then some ⟨equal, [rt]⟩
    else some ⟨unlike, [rs, rt]⟩
  | byOrder overflow rsZero below =>
    if rt ≤ rs then some ⟨overflow, [rs, rt]⟩
    else if rs = 0 then some ⟨rsZero, [rt]⟩
    else some ⟨below, [rs, rt]⟩

/-- The opcodes of compact branches that are told apart by the register fields. -/
def families : List (BitVec 6 × Family) := [
  (0x06, .byEquality (some .blez) .blezalc .bgezalc .bgeuc),
  (0x07, .byEquality (some .bgtz) .bgtzalc .bltzalc .bltuc),
  (0x16, .byEquality none .blezc .bgezc .bgec),
  (0x17, .byEquality none .bgtzc .bltzc .bltc),
  (0x08, .byOrder .bovc .beqzalc .beqc),
  (0x18, .byOrder .bnvc .bnezalc .bnec)]

/-- The rows of a family under an opcode. -/
def Family.rows (opcode : BitVec 6) : Family → List Row
  | byEquality rtZero rsZero equal unlike =>
    (rtZero.map fun m => primary (opcode.setWidth 32) m branchRs |>.fix rtField 0).toList ++ [
      primary (opcode.setWidth 32) rsZero branchRt |>.fix rsField 0 |>.when .rsUnlikeRt,
      primary (opcode.setWidth 32) equal branchRt |>.when .rsEqualRt,
      primary (opcode.setWidth 32) unlike branchRsRt |>.when .rsUnlikeRt]
  | byOrder overflow rsZero below => [
    primary (opcode.setWidth 32) overflow branchRsRt |>.when .rsFromRt,
    primary (opcode.setWidth 32) below branchRsRt |>.when .rsBelowRt,
    primary (opcode.setWidth 32) rsZero branchRt |>.fix rsField 0 |>.when .rsBelowRt]

/-- A row without its generation and whatever else has no part in the choice of a row or in the
operands. -/
def Row.bare (r : Row) : Row :=
  { mask := r.mask, value := r.value, mnemonic := r.mnemonic, slots := r.slots,
    relation := r.relation, wide := r.wide }

theorem rows_families :
    ∀ p ∈ families, (table.filter fun r =>
      primaryOpcode r.value == p.1 && r.generation != .beforeR6).map Row.bare = p.2.rows p.1 := by
  decide +kernel

theorem selects_bare (hv : v.release6 = true) (w : Word) (r : Row) :
    v.selects w r = (r.generation != .beforeR6 && v.selects w r.bare) := by
  have haccepts : v.accepts r = (r.generation != .beforeR6 && v.accepts r.bare) := by
    rw [Variant.accepts, Variant.accepts, hv]
    cases r.generation <;> rfl
  rw [Variant.selects, haccepts, Bool.and_left_comm]
  rfl

/-- The row of a word is chosen from the rows of its family. -/
theorem row?_bare {family : Family} (hv : v.release6 = true)
    (hfamily : (primaryOpcode w, family) ∈ families) :
    (v.row? w).map Row.bare =
      mostSpecific Row.specificity ((family.rows (primaryOpcode w)).filter (v.selects w)) := by
  have hrows := rows_families _ hfamily
  dsimp only at hrows
  have hfilter : (candidates w).filter (v.selects w) =
      (table.filter fun r => primaryOpcode r.value == primaryOpcode w &&
        r.generation != .beforeR6).filter (v.selects w ∘ Row.bare) := by
    rw [candidates_eq, List.filter_filter, List.filter_filter]
    refine List.filter_congr fun r _ => ?_
    rw [selects_bare hv, Function.comp_apply]
    cases primaryOpcode r.value == primaryOpcode w <;> cases r.generation != .beforeR6 <;> simp
  rw [← hrows, List.filter_map, ← hfilter, mostSpecific_map]
  rfl

theorem and_or_eq_iff {a b x : Word} (ha : x &&& a = x) (hb : x &&& b = 0) :
    w &&& (a ||| b) = x ↔ w &&& a = x ∧ w &&& b = 0 := by
  constructor
  · intro h
    have hcut : ∀ c : Word, (a ||| b) &&& c = c → w &&& c = x &&& c := by
      intro c hc
      rw [← h, BitVec.and_assoc, hc]
    have habs : (a ||| b) &&& a = a ∧ (a ||| b) &&& b = b := by
      constructor <;> ext i <;> simp <;> grind
    exact ⟨(hcut a habs.1).trans ha, (hcut b habs.2).trans hb⟩
  · rintro ⟨hwa, hwb⟩
    rw [BitVec.and_or_distrib_left, hwa, hwb]
    exact BitVec.or_zero

theorem and_fieldMask_eq_iff (start : Nat) {width : Nat} (b : BitVec width)
    (h : start + width ≤ 32) :
    w &&& ((BitVec.allOnes width).setWidth 32 <<< start) = b.setWidth 32 <<< start ↔
      field start width w = b := by
  constructor
  · intro hw
    refine BitVec.eq_of_getLsbD_eq fun i hi => ?_
    have hbit := congrArg (·.getLsbD (start + i)) hw
    simp only [BitVec.getLsbD_and, BitVec.getLsbD_shiftLeft, BitVec.getLsbD_setWidth,
      BitVec.getLsbD_allOnes] at hbit
    simpa [field, hi, show start + i < 32 by omega, show i < 32 by omega,
      show ¬start + i < start by omega] using hbit
  · rintro rfl
    refine BitVec.eq_of_getLsbD_eq fun i hi => ?_
    simp only [field, BitVec.getLsbD_and, BitVec.getLsbD_shiftLeft, BitVec.getLsbD_setWidth,
      BitVec.getLsbD_allOnes, BitVec.getLsbD_extractLsb', hi]
    by_cases hlow : i < start
    · simp [hlow]
    · simp [hlow, show i - start < 32 by omega, show start + (i - start) = i by omega,
        Bool.and_comm]

theorem appliesTo_primary (opcode : BitVec 6) (m : Mnemonic) (slots : List Slot) :
    (primary (opcode.setWidth 32) m slots).appliesTo w = (primaryOpcode w == opcode) := by
  have hmask : (0xfc000000 : Word) = (BitVec.allOnes 6).setWidth 32 <<< 26 := by decide
  have hiff := and_fieldMask_eq_iff (w := w) 26 opcode (by decide)
  rw [← hmask] at hiff
  rw [Bool.eq_iff_iff, Row.appliesTo_iff, beq_iff_eq]
  exact (and_iff_left rfl).trans hiff

theorem appliesTo_fix {field : Word} (hr : r.value &&& r.mask = r.value)
    (hfield : r.value &&& field = 0) :
    (r.fix field 0).appliesTo w = (r.appliesTo w && w &&& field == 0) := by
  have hiff : (r.fix field 0).appliesTo w = true ↔
      w &&& (r.mask ||| field) = r.value ∧ r.relation.holds w = true := by
    rw [Row.appliesTo_iff]
    show w &&& _ = r.value ||| 0 ∧ _ ↔ _
    rw [show r.value ||| 0 = r.value from BitVec.or_zero]
    rfl
  rw [Bool.eq_iff_iff, hiff, and_or_eq_iff hr hfield, Bool.and_eq_true, Row.appliesTo_iff,
    beq_iff_eq, and_right_comm]

theorem appliesTo_when (hr : r.relation = .always) (relation : Relation) :
    (r.when relation).appliesTo w = (r.appliesTo w && relation.holds w) := by
  rw [Row.appliesTo, Row.appliesTo, hr, Row.when, Relation.holds.eq_1, Bool.and_true]

/-- An opcode leaves the register fields open. -/
theorem opcode_and (opcode : BitVec 6) :
    (opcode.setWidth 32 <<< 26 : Word) &&& 0xfc000000 = opcode.setWidth 32 <<< 26 ∧
      (opcode.setWidth 32 <<< 26 : Word) &&& rtField = 0 ∧
      (opcode.setWidth 32 <<< 26 : Word) &&& rsField = 0 := by
  revert opcode
  decide

theorem appliesTo_primary_fix {field : Word}
    (hfield : (opcode.setWidth 32 <<< 26 : Word) &&& field = 0) :
    ((primary (opcode.setWidth 32) m slots).fix field 0).appliesTo w =
      (primaryOpcode w == opcode && w &&& field == 0) := by
  rw [← appliesTo_primary opcode m slots]
  exact appliesTo_fix (r := primary (opcode.setWidth 32) m slots) (opcode_and opcode).1 hfield

theorem rsField_and : w &&& rsField = 0 ↔ rs w = 0 :=
  and_fieldMask_eq_iff 21 (0 : BitVec 5) (by decide)

theorem rtField_and : w &&& rtField = 0 ↔ rt w = 0 :=
  and_fieldMask_eq_iff 16 (0 : BitVec 5) (by decide)

theorem specificity_primary (opcode : Word) (m : Mnemonic) (slots : List Slot) :
    (primary opcode m slots).specificity = 6 := by
  show (List.range 32).countP (BitVec.getLsbD 0xfc000000) = 6
  decide

theorem specificity_fix_rs (opcode : Word) (m : Mnemonic) (slots : List Slot) :
    ((primary opcode m slots).fix rsField 0).specificity = 11 := by
  show (List.range 32).countP (BitVec.getLsbD (0xfc000000 ||| rsField)) = 11
  decide

/-! ## The choice in a family

Once the opcode is that of the family, whether a row applies is a matter of the two
register fields. So the rows that apply are found by cases on these, and where two are
left, one of them has a field fixed to zero and is the more specific. -/

variable {c : Relation}

theorem selects_related (hopcode : primaryOpcode w = opcode) :
    v.selects w ((primary (opcode.setWidth 32) m slots).when c) = c.holds w := by
  rw [Variant.selects, appliesTo_when rfl, appliesTo_primary, hopcode, beq_self_eq_true,
    Bool.true_and]
  exact Bool.and_true _

theorem selects_rsZero (hopcode : primaryOpcode w = opcode) :
    v.selects w (((primary (opcode.setWidth 32) m slots).fix rsField 0).when c) =
      (rs w == 0 && c.holds w) := by
  have hrs : (w &&& rsField == 0) = (rs w == 0) := by
    rw [Bool.eq_iff_iff, beq_iff_eq, beq_iff_eq, rsField_and]
  rw [Variant.selects, appliesTo_when rfl, appliesTo_primary_fix (opcode_and opcode).2.2, hopcode,
    beq_self_eq_true, Bool.true_and, hrs]
  exact Bool.and_true _

theorem selects_rtZero (hopcode : primaryOpcode w = opcode) :
    v.selects w ((primary (opcode.setWidth 32) m slots).fix rtField 0) = (rt w == 0) := by
  have hrt : (w &&& rtField == 0) = (rt w == 0) := by
    rw [Bool.eq_iff_iff, beq_iff_eq, beq_iff_eq, rtField_and]
  rw [Variant.selects, appliesTo_primary_fix (opcode_and opcode).2.1, hopcode, beq_self_eq_true,
    Bool.true_and, hrt]
  exact Bool.and_true _

theorem filter_rtZero (hopcode : primaryOpcode w = opcode) (rtZero : Option Mnemonic) :
    (rtZero.map fun m =>
        (primary (opcode.setWidth 32) m branchRs).fix rtField 0).toList.filter (v.selects w) =
      if rt w = 0 then
        (rtZero.map fun m => (primary (opcode.setWidth 32) m branchRs).fix rtField 0).toList
      else [] := by
  cases rtZero with
  | none => rw [Option.map_none, Option.toList_none, List.filter_nil, ite_self]
  | some m =>
      rw [Option.map_some, Option.toList_some, List.filter_cons, List.filter_nil,
        selects_rtZero hopcode]
      simp only [beq_iff_eq]

/-- The register fields of slots. -/
def registerFields (w : Word) (slots : List Slot) : List (BitVec 5) :=
  slots.filterMap fun slot =>
    match slot.source with
    | .rs => some (rs w)
    | .rt => some (rt w)
    | _ => none

/-- The branch of a row. -/
def Row.branch (w : Word) (r : Row) : CompactBranch :=
  ⟨r.mnemonic, registerFields w r.slots⟩

/-- A row that fixes `rs` is meant, before or behind one that fixes the opcode alone. -/
theorem mostSpecific_fix_rs (opcode : Word) (m m' : Mnemonic) (slots slots' : List Slot)
    (c c' : Relation) :
    let fixed := ((primary opcode m slots).fix rsField 0).when c
    let related := (primary opcode m' slots').when c'
    mostSpecific Row.specificity [fixed, related] = some fixed ∧
      mostSpecific Row.specificity [related, fixed] = some fixed := by
  intro fixed related
  have hfixed : fixed.specificity = 11 := specificity_fix_rs opcode m slots
  have hrelated : related.specificity = 6 := specificity_primary opcode m' slots'
  simp [mostSpecific, moreSpecific, hfixed, hrelated]

theorem choice_byOrder (hopcode : primaryOpcode w = opcode) (overflow rsZero below : Mnemonic) :
    let family := Family.byOrder overflow rsZero below
    (mostSpecific Row.specificity ((family.rows opcode).filter (v.selects w))).map (Row.branch w) =
      family.branch? (rs w) (rt w) := by
  intro family
  simp only [family, Family.rows, List.filter_cons, List.filter_nil, selects_related hopcode,
    selects_rsZero hopcode, Relation.holds]
  by_cases hfrom : rt w ≤ rs w
  · have hbelow : decide (rs w < rt w) = false := by
      rwa [decide_eq_false_iff_not, BitVec.not_lt]
    rw [decide_eq_true hfrom, hbelow, Bool.and_false, Family.branch?, if_pos hfrom]
    rfl
  · have hbelow : decide (rs w < rt w) = true := by
      rwa [decide_eq_true_iff, ← BitVec.not_le]
    rw [decide_eq_false hfrom, hbelow, Bool.and_true, Family.branch?, if_neg hfrom]
    by_cases hzero : rs w = 0
    · rw [beq_iff_eq.mpr hzero, if_pos hzero]
      exact congrArg (Option.map _) (mostSpecific_fix_rs _ _ _ _ _ _ _).2
    · rw [beq_eq_false_iff_ne.mpr hzero, if_neg hzero]
      rfl

theorem choice_byEquality (hopcode : primaryOpcode w = opcode) (rtZero : Option Mnemonic)
    (rsZero equal unlike : Mnemonic) :
    let family := Family.byEquality rtZero rsZero equal unlike
    (mostSpecific Row.specificity ((family.rows opcode).filter (v.selects w))).map (Row.branch w) =
      family.branch? (rs w) (rt w) := by
  intro family
  simp only [family, Family.rows, List.filter_append, filter_rtZero hopcode, List.filter_cons,
    List.filter_nil, selects_related hopcode, selects_rsZero hopcode, Relation.holds]
  by_cases hrt : rt w = 0
  · have hne : (rt w != 0) = false := by rw [hrt]; rfl
    rw [hne, Bool.and_false, Bool.and_false, Bool.and_false, if_pos hrt, Family.branch?, if_pos hrt]
    cases rtZero <;> rfl
  · have hne : (rt w != 0) = true := bne_iff_ne.mpr hrt
    rw [hne, Bool.and_true, Bool.and_true, if_neg hrt, Family.branch?, if_neg hrt]
    by_cases hrs : rs w = 0
    · have hunlike : rs w ≠ rt w := fun h => hrt (h.symm.trans hrs)
      rw [bne_iff_ne.mpr hunlike, beq_eq_false_iff_ne.mpr hunlike, beq_iff_eq.mpr hrs, if_pos hrs]
      exact congrArg (Option.map _) (mostSpecific_fix_rs _ _ _ _ _ _ _).1
    · rw [beq_eq_false_iff_ne.mpr hrs, if_neg hrs]
      by_cases heq : rs w = rt w
      · have hunlike : (rs w != rt w) = false := by rw [heq, bne_self_eq_false]
        rw [hunlike, beq_iff_eq.mpr heq, if_pos heq]
        rfl
      · rw [bne_iff_ne.mpr heq, beq_eq_false_iff_ne.mpr heq, if_neg heq]
        rfl

/-- The branch of a word is the one that its register fields select in the family. -/
theorem branch_row? {family : Family} (hv : v.release6 = true)
    (hfamily : (primaryOpcode w, family) ∈ families) :
    (v.row? w).map (Row.branch w) = family.branch? (rs w) (rt w) := by
  have hchoice : ((v.row? w).map Row.bare).map (Row.branch w) = family.branch? (rs w) (rt w) := by
    rw [row?_bare hv hfamily]
    cases family with
    | byEquality => exact choice_byEquality rfl ..
    | byOrder => exact choice_byOrder rfl ..
  rw [← hchoice, Option.map_map]
  rfl

theorem slots_of_mem_rows {family : Family} (hr : r ∈ family.rows opcode) :
    r.slots ∈ [branchRs, branchRt, branchRsRt] := by
  cases family with
  | byEquality rtZero rsZero equal unlike =>
      rcases List.mem_append.mp hr with hr | hr
      · obtain ⟨m, -, rfl⟩ := Option.map_eq_some_iff.mp (Option.mem_toList.mp hr)
        exact List.mem_cons_self
      · simp only [List.mem_cons, List.not_mem_nil, or_false] at hr
        rcases hr with rfl | rfl | rfl <;> simp [primary, of, fix, when]
  | byOrder overflow rsZero below =>
      simp only [Family.rows, List.mem_cons, List.not_mem_nil, or_false] at hr
      rcases hr with rfl | rfl | rfl <;> simp [primary, of, fix, when]

theorem slots_of_row? {family : Family} (hv : v.release6 = true)
    (hfamily : (primaryOpcode w, family) ∈ families) (hrow : v.row? w = some r) :
    r.slots ∈ [branchRs, branchRt, branchRsRt] := by
  have hbare := row?_bare hv hfamily
  rw [hrow, Option.map_some] at hbare
  show r.bare.slots ∈ _
  exact slots_of_mem_rows (List.mem_filter.mp (mostSpecific_mem hbare.symm)).1

/-- Branches take registers and a target. -/
theorem operands?_of_slots (v : Variant) (address : UInt64) (w : Word)
    (hslots : r.slots ∈ [branchRs, branchRt, branchRsRt]) :
    v.operands? address w r =
      some ((registerFields w r.slots).map (fun n => v.registerOperand (.general n) .read) ++
        [v.targetOperand (wordsFrom (address + 4) (field 0 16 w))]) := by
  rw [Variant.operands?]
  simp only [List.mem_cons, List.not_mem_nil, or_false] at hslots
  rcases hslots with h | h | h <;> rw [h] <;> rfl

theorem toNat_target (v : Variant) (address : UInt64) {n : Nat} (offset : BitVec n) :
    ((v.wrap (wordsFrom (address + 4) offset)).toNat : Int) =
      (address.toNat + 4 + 4 * offset.toInt) % 2 ^ v.addressBits := by
  have hsum : wordsFrom (address + 4) offset =
      address + (Int64.ofInt (4 + 4 * offset.toInt)).toUInt64 := by
    rw [wordsFrom, signedField, Int64.ofInt_add, Int64.ofInt_mul, Int64.toUInt64_add,
      UInt64.add_assoc, Int64.mul_comm]
    rfl
  have hlow := toNat_lowAddress_add v.addressBits_le address (4 + 4 * offset.toInt)
  rw [← hsum, ← Variant.wrap_eq, UInt64.toUInt64_toInt64, ← Int.add_assoc] at hlow
  exact hlow

/-- An instruction is a branch with some offset at an address. -/
structure CompactBranch.DecodesTo (b : CompactBranch) (v : Variant) (address : UInt64)
    (offset : BitVec 16) (i : Instruction) : Prop where
  mnemonic_eq : i.mnemonic = .mips b.mnemonic
  operands_eq : ∃ target : Int64,
    i.operands = b.registers.map (fun n => v.registerOperand (.general n) .read) ++
      [.ofImmediate target v.generalBits] ∧
    (target.toUInt64.toNat : Int) = (address.toNat + 4 + 4 * offset.toInt) % 2 ^ v.addressBits

/-- In release 6 a word of one of the six opcodes is the branch that its register fields select in
the family of the opcode, and means nothing if they select none. The operands are the registers of
the branch and then its target, which lies a signed number of words from the next instruction and
wraps at the width of the general registers. -/
theorem decodeOne_compactBranch {e : Engine} (he : e.architecture = .mips)
    (hr6 : e.mode.has Mode.release6 = true) {w : Word} {family : Family}
    (hfamily : (primaryOpcode w, family) ∈ families) (before after : List UInt8)
    (address : UInt64) :
    let v := Variant.ofMode e.mode
    let decoded := e.decodeOne (before ++ (v.bytesOf w ++ after)) before.length address
    (family.branch? (rs w) (rt w) = none →
      decoded = .error ⟨before.length, .unknownOpcode⟩) ∧
    ∀ b, family.branch? (rs w) (rt w) = some b →
      ∃ i, decoded = .ok (i, before.length + wordLength) ∧
        b.DecodesTo v address (field 0 16 w) i := by
  intro v decoded
  have hbranch := branch_row? (v := v) hr6 hfamily
  constructor
  · intro hnone
    rw [hnone, Option.map_eq_none_iff] at hbranch
    refine decodeOne_meaningless_word before after he rfl ?_
    rw [Variant.meaning?, hbranch]
    rfl
  · intro b hb
    rw [hb, Option.map_eq_some_iff] at hbranch
    obtain ⟨row, hrow, rfl⟩ := hbranch
    have hmeaning := Variant.meaning?_eq_some_iff.mpr
      ⟨hrow, operands?_of_slots v address w (slots_of_row? hr6 hfamily hrow)⟩
    refine ⟨_, decodeOne_word before after he rfl hmeaning, rfl, _, rfl, ?_⟩
    rw [UInt64.toUInt64_toInt64]
    exact toNat_target v address _

/-- A MIPS engine of release 6 with 32 bits, little-endian, with default options. -/
def mipsOf32Release6 : Engine where
  architecture := .mips
  mode := ⟨Mode.width32 ||| Mode.release6⟩
  supported := by decide

/-- Under opcode `06` equal fields branch on one register, here back across the start of the address
space. Under opcode `16` nothing has `rt` zero. -/
theorem decodeOne_compactBranch_bgezalc :
    (∃ i, mipsOf32Release6.decodeOne [0xfd, 0xff, 0xa5, 0x18] 0 0 = .ok (i, 4) ∧
      i.mnemonic = .mips .bgezalc ∧
      i.operands = [.ofRegister (.ofMips (.general 5)) 32 .read, .ofImmediate 0xfffffff8 32]) ∧
    mipsOf32Release6.decodeOne [0, 0, 0xa0, 0x58] 0 0 = .error ⟨0, .unknownOpcode⟩ := by
  obtain ⟨i, hrun, hmnemonic, target, hoperands, htarget⟩ :=
    (decodeOne_compactBranch (e := mipsOf32Release6) (w := 0x18a5fffd) rfl (by decide)
      List.mem_cons_self [] [] 0).2 ⟨.bgezalc, [5]⟩ (by decide)
  have heq : target = 0xfffffff8 := by
    have hvalue : (target.toUInt64.toNat : Int) = 0xfffffff8 := htarget.trans (by decide)
    have hbits : target.toUInt64 = 0xfffffff8 := UInt64.toNat_inj.mp (by exact_mod_cast hvalue)
    exact congrArg UInt64.toInt64 hbits
  have hfamily : (primaryOpcode 0x58a00000, Family.byEquality none .blezc .bgezc .bgec) ∈
      families := List.getElem_mem (show 2 < families.length by decide)
  have hnone := (decodeOne_compactBranch (e := mipsOf32Release6) rfl (by decide) hfamily [] [] 0).1
    (by decide)
  exact ⟨⟨i, hrun, hmnemonic, by rw [hoperands, heq]; rfl⟩, hnone⟩

end Mips

end MachineCode
