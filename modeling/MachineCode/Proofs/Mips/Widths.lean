import MachineCode.Proofs.Mips.RowChoice
import MachineCode.Proofs.Mips.Words

/-!
# Instructions under wider registers

The variant with 64-bit registers has rows that the one with 32-bit registers does
not have, and the most specific row wins. An added row could therefore take a word
away from the row that it meant before. None does: where a row for 64 bits and one
for either width apply to one word, the one for either width fixes more bits. So a
word that means something with 32-bit registers means the same with 64-bit
registers, and only operands that carry the register width show the difference.
-/

namespace MachineCode.Mips

variable {v : Variant} {w : Word} {r s row : Row} {address : UInt64}

/-- The variant with 64-bit general registers. -/
def Variant.widened (v : Variant) : Variant :=
  { v with wide := true }

/-- Whether no word has both rows, or the first fixes fewer bits. -/
def Row.yields (r s : Row) : Bool :=
  primaryOpcode r.value != primaryOpcode s.value || r.excludes s || r.specificity < s.specificity

theorem yields_table :
    ((table.filter (·.wide)).all fun r => (table.filter (!·.wide)).all fun s => r.yields s) =
      true := by
  decide +kernel

/-- Of two rows that a word has, the one that needs 64 bits fixes fewer bits. -/
theorem yields_of_mem (hr : r ∈ table) (hs : s ∈ table) (hrsel : v.selects w r = true)
    (hssel : v.selects w s = true) (hwide : r.wide = true) (hnarrow : s.wide = false) :
    r.specificity < s.specificity := by
  have hrows := List.all_eq_true.mp yields_table r (List.mem_filter.mpr ⟨hr, hwide⟩)
  have hyields := List.all_eq_true.mp hrows s (List.mem_filter.mpr ⟨hs, by rw [hnarrow]; rfl⟩)
  have hexcludes := Row.excludes_eq_false hrsel hssel
  rw [Variant.selects, Bool.and_eq_true] at hrsel hssel
  have hkey : primaryOpcode r.value = primaryOpcode s.value := by
    rw [← primaryOpcode_eq hr hrsel.1, ← primaryOpcode_eq hs hssel.1]
  rw [Row.yields, hkey, bne_self_eq_false, hexcludes, Bool.false_or, Bool.false_or] at hyields
  exact of_decide_eq_true hyields

/-- With 64-bit registers a word has the rows that it had before, and more that need 64 bits. -/
theorem selects_widened (hv : v.wide = false) :
    v.selects w r = (v.widened.selects w r && !r.wide) := by
  rw [Variant.selects, Variant.selects, Variant.accepts, Variant.accepts, Variant.widened, hv,
    Bool.or_false, Bool.or_true, Bool.and_true, ← Bool.and_assoc]

theorem selects_of_row? (h : v.row? w = some row) : row ∈ table ∧ v.selects w row = true := by
  rw [row?_eq] at h
  exact List.mem_filter.mp (mostSpecific_mem h)

theorem wide_eq_false (hv : v.wide = false) (h : v.row? w = some row) : row.wide = false := by
  have hsel := (selects_of_row? h).2
  rw [selects_widened hv, Bool.and_eq_true, Bool.not_eq_true'] at hsel
  exact hsel.2

/-- Rows for 64 bits fix fewer bits than the row that a word meant without them. -/
theorem specificity_lt_of_wide (hv : v.wide = false) (h : v.row? w = some row) (hs : s ∈ table)
    (hssel : v.widened.selects w s = true) (hwide : s.wide = true) :
    s.specificity < row.specificity := by
  obtain ⟨hrow, hsel⟩ := selects_of_row? h
  rw [selects_widened hv, Bool.and_eq_true] at hsel
  exact yields_of_mem hs hrow hssel hsel.1 hwide (wide_eq_false hv h)

/-- A word keeps the row that it meant. -/
theorem row?_widened (hv : v.wide = false) (h : v.row? w = some row) :
    v.widened.row? w = some row := by
  have hwider : ∀ s ∈ table, v.widened.selects w s = true → s.wide = true →
      s.specificity < row.specificity := fun s => specificity_lt_of_wide hv h
  rw [row?_eq] at h ⊢
  rw [mostSpecific_filter_eq_some_iff (tieFree_table _ w)] at h ⊢
  obtain ⟨hsel, before, after, htable, hless⟩ := h
  rw [selects_widened hv, Bool.and_eq_true] at hsel
  refine ⟨hsel.1, before, after, htable, fun s hs hssel => ?_⟩
  cases hwide : s.wide with
  | false => exact hless s hs (by rw [selects_widened hv, hssel, hwide]; rfl)
  | true =>
      have hmem : s ∈ table := by
        rw [htable]
        rcases List.mem_append.mp hs with hs | hs
        · exact List.mem_append_left _ hs
        · exact List.mem_append_right _ (List.mem_cons_of_mem row hs)
      exact hwider s hmem hssel hwide

/-- Whether an operand is a general register as such. -/
def Source.isGeneral : Source → Bool
  | .rs | .rt | .rd => true
  | _ => false

/-- How an operand changes when registers get wider: a general register and an address in the
program get the new size, and of the address more bits show; any other operand stays. -/
def Source.Widens (s : Source) (o o' : Operand) : Prop :=
  if s.isGeneral then
    ∃ n access, o = .ofRegister (.mips (.general n)) 32 access ∧
      o' = .ofRegister (.mips (.general n)) 64 access
  else if s.isTarget then
    ∃ a a' : UInt64, o = .ofImmediate a.toInt64 32 ∧ o' = .ofImmediate a'.toInt64 64 ∧
      a.toNat = a'.toNat % 2 ^ 32
  else o' = o

theorem registerOperand_widens (hv : v.wide = false) (n : BitVec 5) (access : Access) :
    ∃ n' access', v.registerOperand (.general n) access =
        .ofRegister (.mips (.general n')) 32 access' ∧
      v.widened.registerOperand (.general n) access =
        .ofRegister (.mips (.general n')) 64 access' := by
  refine ⟨n, access, ?_, rfl⟩
  simp only [Variant.registerOperand, Variant.generalBits, hv]
  rfl

theorem targetOperand_widens (hv : v.wide = false) (target : UInt64) :
    ∃ a a' : UInt64, v.targetOperand target = .ofImmediate a.toInt64 32 ∧
      v.widened.targetOperand target = .ofImmediate a'.toInt64 64 ∧
      a.toNat = a'.toNat % 2 ^ 32 := by
  refine ⟨target &&& 0xffffffff, target, ?_, rfl, ?_⟩
  · simp only [Variant.targetOperand, Variant.generalBits, Variant.wrap, hv]
    rfl
  · rw [UInt64.toNat_and]
    exact Nat.and_two_pow_sub_one_eq_mod _ 32

theorem operand?_widens (hv : v.wide = false) {slot : Slot} {o : Operand}
    (h : v.operand? address w slot = some o) :
    ∃ o', v.widened.operand? address w slot = some o' ∧ slot.source.Widens o o' := by
  obtain ⟨source, access⟩ := slot
  cases source
  case rs | rt | rd =>
    cases h
    exact ⟨_, rfl, registerOperand_widens hv _ _⟩
  case branch16 | branch21 | branch26 | jump26 | pc19 =>
    cases h
    exact ⟨_, rfl, targetOperand_widens hv _⟩
  case fs | ft | fd | branchCondition | compareCondition =>
    cases h
    exact ⟨_, rfl, rfl⟩
  all_goals exact ⟨o, h, rfl⟩

/-- Slot by slot, each operand of a row changes as its source says. -/
theorem operands?_widens (hv : v.wide = false) {ops : List Operand}
    (h : v.operands? address w row = some ops) :
    ∃ ops', v.widened.operands? address w row = some ops' ∧
      ops.length = row.slots.length ∧ ops'.length = row.slots.length ∧
      ∀ p ∈ row.slots.zip (ops.zip ops'), p.1.source.Widens p.2.1 p.2.2 := by
  rw [Variant.operands?] at h ⊢
  generalize row.slots = slots at h ⊢
  induction slots generalizing ops with
  | nil =>
      cases h
      exact ⟨[], rfl, rfl, rfl, fun p hp => (by cases hp)⟩
  | cons slot slots ih =>
      obtain ⟨o, os, ho, hos, rfl⟩ := mapM_cons_some h
      obtain ⟨o', ho', hwidens⟩ := operand?_widens hv ho
      obtain ⟨os', hos', hlen, hlen', hrest⟩ := ih hos
      refine ⟨o' :: os', ?_, congrArg (· + 1) hlen, congrArg (· + 1) hlen', fun p hp => ?_⟩
      · rw [List.mapM_cons, ho', hos']
        rfl
      · rcases List.mem_cons.mp hp with rfl | hp
        · exact hwidens
        · exact hrest p hp

/-- Two records of one row, the second under wider registers: they differ in their operands and in
the text of these, and the operands differ slot by slot as their sources say. -/
structure Row.Widens (r : Row) (i i' : Instruction) : Prop where
  rest_eq : i' = { i with operands := i'.operands, operandText := i'.operandText }
  length_eq : i.operands.length = r.slots.length
  length_eq' : i'.operands.length = r.slots.length
  operand : ∀ p ∈ r.slots.zip (i.operands.zip i'.operands), p.1.source.Widens p.2.1 p.2.2

theorem Variant.ofMode_narrow {m : Mode} (hm : Architecture.mips.supports m = true)
    (h32 : m.has Mode.width32 = true) : (ofMode m).wide = false := by
  rw [Architecture.supports, h32, Bool.and_eq_true, bne_iff_ne] at hm
  have h64 : m.has Mode.width64 = false := Bool.eq_false_iff.mpr fun h => hm.2 h.symm
  rw [ofMode, Mode.width, h64]
  cases m.has Mode.width16 <;> rfl

theorem Variant.ofMode_widened {m m' : Mode} (h64 : m'.has Mode.width64 = true)
    (hrelease : m'.has Mode.release6 = m.has Mode.release6)
    (horder : m'.isBigEndian = m.isBigEndian) : ofMode m' = (ofMode m).widened := by
  rw [ofMode, ofMode, widened, hrelease, horder, Mode.width, h64]
  rfl

/-- A word that means an instruction to an engine with 32-bit registers means it to an engine with
64-bit registers too, of the same generation and byte order. It has the same row, which is one for
either width, because every row for 64 bits that applies fixes fewer bits. The records agree in
everything but their operands: general registers and addresses in the program have the new size,
and the addresses agree in their low 32 bits. -/
theorem decodeOne_widens {narrow wide : Engine} (hnarrow : narrow.architecture = .mips)
    (hwide : wide.architecture = .mips) (h32 : narrow.mode.has Mode.width32 = true)
    (h64 : wide.mode.has Mode.width64 = true)
    (hrelease : wide.mode.has Mode.release6 = narrow.mode.has Mode.release6)
    (horder : wide.mode.isBigEndian = narrow.mode.isBigEndian)
    (hdetail : wide.options.detail = narrow.options.detail)
    {bytes before after : List UInt8} (w : Word)
    (hbytes : bytes = before ++ ((Variant.ofMode narrow.mode).bytesOf w ++ after))
    {i : Instruction} {next : Nat}
    (h : narrow.decodeOne bytes before.length address = .ok (i, next)) :
    ∃ row i', wide.decodeOne bytes before.length address = .ok (i', next) ∧
      (Variant.ofMode narrow.mode).row? w = some row ∧
      (Variant.ofMode wide.mode).row? w = some row ∧ row.wide = false ∧
      (∀ s ∈ table, s.wide = true → s.appliesTo w = true →
        (Variant.ofMode wide.mode).accepts s = true → s.specificity < row.specificity) ∧
      row.Widens i i' := by
  have hv := Variant.ofMode_narrow (hnarrow ▸ narrow.supported) h32
  have hvariant := Variant.ofMode_widened h64 hrelease horder
  subst hbytes
  cases hmeaning : (Variant.ofMode narrow.mode).meaning? address w with
  | none =>
      rw [decodeOne_meaningless_word _ _ hnarrow rfl hmeaning] at h
      cases h
  | some parts =>
      obtain ⟨row, ops⟩ := parts
      rw [decodeOne_word _ _ hnarrow rfl hmeaning] at h
      cases h
      obtain ⟨hrow, hops⟩ := Variant.meaning?_eq_some_iff.mp hmeaning
      obtain ⟨ops', hops', hlen, hlen', hwidens⟩ := operands?_widens hv hops
      have hrow' := row?_widened hv hrow
      have hmeaning' := Variant.meaning?_eq_some_iff.mpr ⟨hrow', hops'⟩
      have hdecode := decodeOne_word before after hwide hvariant.symm hmeaning'
      rw [hdetail] at hdecode
      refine ⟨row, _, hdecode, hrow, hvariant ▸ hrow', wide_eq_false hv hrow,
        fun s hs hswide happlies haccepts => ?_, rfl, hlen, hlen', hwidens⟩
      refine specificity_lt_of_wide hv hrow hs ?_ hswide
      rw [Variant.selects, happlies, ← hvariant, haccepts]
      rfl

/-- A MIPS engine of 64 bits, little-endian, with default options. -/
def mipsOf64 : Engine where
  architecture := .mips
  mode := ⟨Mode.width64⟩
  supported := by decide

/-- A jump at the end of a region of the address space names a place in the next one, of which 32
bits show only the last. -/
theorem decodeOne_widens_jump :
    ∃ (row : Row) (i i' : Instruction),
      Engine.mipsOf32.decodeOne [1, 0, 0, 8] 0 0x1fffffffc = .ok (i, 4) ∧
      i.operands = [.ofImmediate 4 32] ∧
      mipsOf64.decodeOne [1, 0, 0, 8] 0 0x1fffffffc = .ok (i', 4) ∧
      i'.operands = [.ofImmediate 0x200000004 64] ∧ row.Widens i i' := by
  have hread : (match Engine.mipsOf32.decodeOne [1, 0, 0, 8] 0 0x1fffffffc,
        mipsOf64.decodeOne [1, 0, 0, 8] 0 0x1fffffffc with
      | .ok (i, next), .ok (i', _) => some (next, i.operands, i'.operands)
      | _, _ => none) = some (4, [.ofImmediate 4 32], [.ofImmediate 0x200000004 64]) := by
    decide +kernel
  have hbytes : [1, 0, 0, 8] = [] ++ ((Variant.ofMode Engine.mipsOf32.mode).bytesOf 0x08000001 ++
      []) := by
    decide
  cases hfound : Engine.mipsOf32.decodeOne [1, 0, 0, 8] 0 0x1fffffffc with
  | error err =>
      rw [hfound] at hread
      cases hread
  | ok found =>
      obtain ⟨i, next⟩ := found
      obtain ⟨row, i', hfound', -, -, -, -, hwidens⟩ := decodeOne_widens
        (show Engine.mipsOf32.architecture = .mips from rfl)
        (show mipsOf64.architecture = .mips from rfl) (by decide) (by decide) (by decide)
        (by decide) rfl 0x08000001 hbytes hfound
      rw [hfound, show mipsOf64.decodeOne [1, 0, 0, 8] 0 0x1fffffffc = .ok (i', next) from
        hfound'] at hread
      simp only [Option.some.injEq, Prod.mk.injEq] at hread
      obtain ⟨rfl, hops, hops'⟩ := hread
      exact ⟨row, i, i', rfl, hops, hfound', hops', hwidens⟩

end MachineCode.Mips
