import MachineCode.Mips.Variant
import MachineCode.Proofs.Specificity

/-!
# Which MIPS row a word means

Rows overlap: `nop` is a shift, `move` an `or`, and release 6 put several compact
branches on one opcode, told apart by comparing registers, which counts for
nothing in specificity. Still no word has two meanings. Any two rows of one
primary opcode that fix equally many bits exclude each other: they fix one bit
differently, belong to different generations, or relate the registers in ways
that no word satisfies at once.

Every row fixes the primary opcode, so the index by primary opcode hides no row
that applies.
-/

namespace MachineCode.Mips

variable {r s : Row} {w : Word} {v : Variant}

/-- Whether no word satisfies both relations. -/
def Relation.excludes : Relation → Relation → Bool
  | .rsBelowRt, .rsFromRt | .rsFromRt, .rsBelowRt => true
  | .rsEqualRt, .rsUnlikeRt | .rsUnlikeRt, .rsEqualRt => true
  | _, _ => false

/-- Whether the relation needs a register other than zero in `rt`. -/
def Relation.needsRt : Relation → Bool
  | .rsEqualRt | .rsUnlikeRt => true
  | _ => false

/-- Whether no variant has rows of both generations. -/
def Generation.excludes : Generation → Generation → Bool
  | .beforeR6, .r6 | .r6, .beforeR6 => true
  | _, _ => false

/-- Whether the row fixes its `rt` field to zero. -/
def Row.fixesRtZero (r : Row) : Bool :=
  rt r.mask == BitVec.allOnes 5 && rt r.value == 0

/-- Whether two rows visibly have no word and variant in common. -/
def Row.excludes (r s : Row) : Bool :=
  (r.value ^^^ s.value) &&& (r.mask &&& s.mask) != 0
    || r.generation.excludes s.generation
    || r.relation.excludes s.relation
    || r.fixesRtZero && s.relation.needsRt
    || r.relation.needsRt && s.fixesRtZero

theorem Relation.not_below_and_from (hbelow : rsBelowRt.holds w = true) :
    rsFromRt.holds w = false := by
  rw [holds, decide_eq_true_eq] at hbelow
  rw [holds, decide_eq_false_iff_not, BitVec.not_le]
  exact hbelow

theorem Relation.not_equal_and_unlike (hequal : rsEqualRt.holds w = true) :
    rsUnlikeRt.holds w = false := by
  rw [holds, Bool.and_eq_true, beq_iff_eq] at hequal
  rw [holds, hequal.1, bne_self_eq_false, Bool.false_and]

theorem Relation.excludes_eq_false {c d : Relation} (hc : c.holds w = true)
    (hd : d.holds w = true) : c.excludes d = false := by
  refine Bool.eq_false_iff.mpr fun h => ?_
  match c, d, h with
  | .rsBelowRt, .rsFromRt, _ => exact Bool.eq_false_iff.mp (not_below_and_from hc) hd
  | .rsFromRt, .rsBelowRt, _ => exact Bool.eq_false_iff.mp (not_below_and_from hd) hc
  | .rsEqualRt, .rsUnlikeRt, _ => exact Bool.eq_false_iff.mp (not_equal_and_unlike hc) hd
  | .rsUnlikeRt, .rsEqualRt, _ => exact Bool.eq_false_iff.mp (not_equal_and_unlike hd) hc

theorem Relation.rt_ne_zero {c : Relation} (hc : c.needsRt = true) (hw : c.holds w = true) :
    rt w ≠ 0 := by
  cases c with
  | rsEqualRt | rsUnlikeRt =>
      rw [holds, Bool.and_eq_true] at hw
      exact bne_iff_ne.mp hw.2
  | always | rsBelowRt | rsFromRt => cases hc

theorem Row.appliesTo_iff :
    r.appliesTo w = true ↔ w &&& r.mask = r.value ∧ r.relation.holds w = true := by
  rw [appliesTo, Bool.and_eq_true, beq_iff_eq]

theorem field_and (start width : Nat) (a b : Word) :
    field start width (a &&& b) = field start width a &&& field start width b := by
  rw [field, field, field, BitVec.extractLsb'_and]

/-- A field that a row fixes as a whole has the row's value in every word of the row. -/
theorem Row.field_eq {start width : Nat} (hw : w &&& r.mask = r.value)
    (hmask : field start width r.mask = BitVec.allOnes width) :
    field start width w = field start width r.value := by
  rw [← hw, field_and, hmask, BitVec.and_allOnes]

theorem Row.rt_eq_zero (hr : r.fixesRtZero = true) (hw : w &&& r.mask = r.value) :
    rt w = 0 := by
  rw [fixesRtZero, Bool.and_eq_true, beq_iff_eq, beq_iff_eq] at hr
  exact (field_eq hw hr.1).trans hr.2

/-- Two rows agree in every bit that both fix if they have a word in common. -/
theorem Row.common_bits (hr : w &&& r.mask = r.value) (hs : w &&& s.mask = s.value) :
    (r.value ^^^ s.value) &&& (r.mask &&& s.mask) = 0 := by
  rw [← hr, ← hs]
  refine BitVec.eq_of_getElem_eq fun i hi => ?_
  rw [show (0 : Word) = 0#32 from rfl, BitVec.getElem_zero]
  simp only [BitVec.getElem_and, BitVec.getElem_xor]
  cases w[i] <;> cases r.mask[i] <;> cases s.mask[i] <;> rfl

theorem Variant.generation_excludes (hr : v.accepts r = true) (hs : v.accepts s = true) :
    r.generation.excludes s.generation = false := by
  rw [accepts, Bool.and_eq_true] at hr hs
  refine Bool.eq_false_iff.mpr fun h => ?_
  have hboth := And.intro hr.1 hs.1
  match hg : r.generation, hg' : s.generation, h with
  | .beforeR6, .r6, _ | .r6, .beforeR6, _ =>
      rw [hg, hg'] at hboth
      cases hv : v.release6 <;> simp [hv] at hboth

/-- Whether a row applies to a word and belongs to a variant. -/
def Variant.selects (v : Variant) (w : Word) (r : Row) : Bool :=
  r.appliesTo w && v.accepts r

theorem Row.excludes_eq_false (hr : v.selects w r = true) (hs : v.selects w s = true) :
    r.excludes s = false := by
  rw [Variant.selects, Bool.and_eq_true, appliesTo_iff] at hr hs
  obtain ⟨⟨hrbits, hrrel⟩, hracc⟩ := hr
  obtain ⟨⟨hsbits, hsrel⟩, hsacc⟩ := hs
  have hrzero : (r.fixesRtZero && s.relation.needsRt) = false := by
    refine Bool.eq_false_iff.mpr fun h => ?_
    rw [Bool.and_eq_true] at h
    exact Relation.rt_ne_zero h.2 hsrel (rt_eq_zero h.1 hrbits)
  have hszero : (r.relation.needsRt && s.fixesRtZero) = false := by
    refine Bool.eq_false_iff.mpr fun h => ?_
    rw [Bool.and_eq_true] at h
    exact Relation.rt_ne_zero h.1 hrrel (rt_eq_zero h.2 hsbits)
  rw [excludes, common_bits hrbits hsbits, bne_self_eq_false,
    Variant.generation_excludes hracc hsacc, Relation.excludes_eq_false hrrel hsrel, hrzero, hszero]
  rfl

theorem primaryOpcode_mask_table :
    (table.all fun r => primaryOpcode r.mask == BitVec.allOnes 6) = true := by
  decide +kernel

/-- Every row fixes the primary opcode. -/
theorem primaryOpcode_eq (hmem : r ∈ table) (hr : r.appliesTo w = true) :
    primaryOpcode w = primaryOpcode r.value := by
  have hmask := List.all_eq_true.mp primaryOpcode_mask_table r hmem
  exact Row.field_eq (Row.appliesTo_iff.mp hr).1 (eq_of_beq hmask)

theorem excludes_table :
    allPairsByKey (fun r : Row => (primaryOpcode r.value).toNat)
      (fun r s => r.excludes s || r.specificity != s.specificity) 6 table = true := by
  decide +kernel

/-- No word has two rows of one variant that fix equally many bits. -/
theorem tieFree_table (v : Variant) (w : Word) : TieFree Row.specificity (v.selects w) table := by
  refine tieFree_of_allPairsByKey excludes_table ?_ fun r s => Row.excludes_eq_false
  intro r hr s hs happlies happlies'
  rw [Variant.selects, Bool.and_eq_true] at happlies happlies'
  rw [← primaryOpcode_eq hr happlies.1, ← primaryOpcode_eq hs happlies'.1]

theorem candidates_eq (w : Word) :
    candidates w = table.filter fun r => primaryOpcode r.value == primaryOpcode w := by
  have hlt : (primaryOpcode w).toNat < 64 := (primaryOpcode w).isLt
  simp [candidates, tableIndex, Array.getD_eq_getD_getElem?, hlt]

/-- The index hides no row that is selected. -/
theorem row?_eq (v : Variant) (w : Word) :
    v.row? w = mostSpecific Row.specificity (table.filter (v.selects w)) := by
  have hfilter : (candidates w).filter (v.selects w) = table.filter (v.selects w) := by
    rw [candidates_eq, List.filter_filter]
    refine List.filter_congr fun r hr => ?_
    cases hsel : v.selects w r with
    | false => rfl
    | true =>
        rw [Variant.selects, Bool.and_eq_true] at hsel
        rw [primaryOpcode_eq hr hsel.1, beq_self_eq_true]
        rfl
  rw [← hfilter]
  rfl

/-- The row that a word means is the one row that applies, belongs to the variant, and fixes more
bits than every other such row; a word without meaning has no such row at all. No two such rows
fix equally many bits, so the order of the table does not matter. -/
theorem row?_only_most_specific (v : Variant) (w : Word) :
    (∀ r, v.row? w = some r ↔ IsOnlyMostSpecific Row.specificity (v.selects w) table r) ∧
      (v.row? w = none ↔ ∀ r ∈ table, ¬(r.appliesTo w = true ∧ v.accepts r = true)) ∧
      TieFree Row.specificity (v.selects w) table ∧
      ∀ rows, table.Perm rows →
        mostSpecific Row.specificity (rows.filter (v.selects w)) = v.row? w := by
  have hfree := tieFree_table v w
  rw [row?_eq]
  refine ⟨fun r => mostSpecific_filter_eq_some_iff hfree, ?_, hfree,
    fun rows hperm => mostSpecific_filter_perm hfree hperm⟩
  constructor
  · intro hnone r hr hsel
    have hmem : r ∈ table.filter (v.selects w) :=
      List.mem_filter.mpr ⟨hr, by rw [Variant.selects, hsel.1, hsel.2]; rfl⟩
    rw [mostSpecific_eq_none hnone] at hmem
    cases hmem
  · intro hall
    have hnil : table.filter (v.selects w) = [] := by
      refine List.filter_eq_nil_iff.mpr fun r hr hsel => ?_
      rw [Variant.selects, Bool.and_eq_true] at hsel
      exact hall r hr hsel
    rw [hnil, mostSpecific_nil]

-- a shift by zero into register zero is not shown as a shift
example :
    (({ wide := false, release6 := false, bigEndian := false } : Variant).row? 0).map
      (·.mnemonic) = some .nop := by
  decide +kernel

/-- The table read backwards gives the zero word, which matches a shift and two of its aliases, the
same row. -/
theorem row?_zero_reversed :
    let v : Variant := { wide := false, release6 := false, bigEndian := false }
    table.Perm table.reverse ∧
      mostSpecific Row.specificity (table.reverse.filter (v.selects 0)) = v.row? 0 := by
  intro v
  have hperm : table.Perm table.reverse := (List.reverse_perm table).symm
  obtain ⟨-, -, -, hrows⟩ := row?_only_most_specific v 0
  exact ⟨hperm, hrows _ hperm⟩

end MachineCode.Mips
