import MachineCode.Proofs.Runs
import MachineCode.Proofs.X86.Alike
import MachineCode.Proofs.X86.Layout
import MachineCode.Proofs.X86.Prefixes
import MachineCode.Proofs.X86.RowChoice
import Mathlib.Data.List.Pairwise

/-!
# Size prefixes lead to the other mode

The prefixes `66` and `67` swap the sizes of 16-bit and 32-bit mode. So an
instruction of one mode, with the two bytes in front, is an instruction of the
other: the prefixes count two more and everything else in the head is read as
before, the sizes come out the same because mode and prefixes both changed, and
the frames are alike. If the longer instruction begins two bytes earlier, it ends
at the same address, and branch targets agree too.

What could go wrong is the choice of the row, since `66` may also select one. It
does not if the row that was chosen ignores that prefix: in the table no row that
`66` selects has an opcode and a ModRM byte in common with such a row.
-/

namespace MachineCode.X86

open Bytes Read

/-- The 16-bit and the 32-bit mode, in either order. -/
def OppositeModes (mode mode' : Width) : Prop :=
  mode = .w32 ∧ mode' = .w16 ∨ mode = .w16 ∧ mode' = .w32

variable {mode mode' : Width} {p p' q q' : Prefixes} {b : UInt8}

theorem OppositeModes.not_long (hmodes : OppositeModes mode mode') :
    mode.isLong = false ∧ mode'.isLong = false := by
  rcases hmodes with ⟨rfl, rfl⟩ | ⟨rfl, rfl⟩ <;> exact ⟨rfl, rfl⟩

/-- Prefixes without size prefixes, and the same ones with both in front. -/
structure Prefixes.Resized (p p' : Prefixes) : Prop where
  count_eq : p'.count = p.count + 2
  lock_eq : p'.lock = p.lock
  repeats_eq : p'.repeats = p.repeats
  segment_eq : p'.segment = p.segment
  rex_eq : p'.rex = p.rex
  operandSize_eq : p.operandSize = false ∧ p'.operandSize = true
  addressSize_eq : p.addressSize = false ∧ p'.addressSize = true

/-- Outside 64-bit mode there are no extension bytes. -/
theorem add?_of_not_long (hmode : mode.isLong = false) (p : Prefixes) (b : UInt8) :
    p.add? mode b =
      (p.addLegacy? b).map fun p => { p with rex := 0, count := p.count + 1 } := by
  have hnot : ¬(mode = .w64 ∧ 0x40 ≤ b ∧ b ≤ 0x4f) := by
    rintro ⟨rfl, -⟩
    cases hmode
  rw [Prefixes.add?, if_neg hnot]
  cases p.addLegacy? b <;> rfl

theorem Prefixes.Resized.addLegacy? (hp : p.Resized p') (hb : b ≠ 0x66 ∧ b ≠ 0x67) :
    p.addLegacy? b = none ∧ p'.addLegacy? b = none ∨
      ∃ q q', p.addLegacy? b = some q ∧ p'.addLegacy? b = some q' ∧ q.Resized q' := by
  obtain ⟨hcount, hlock, hrepeats, hsegment, hrex, hoperand, haddress⟩ := hp
  simp only [Prefixes.addLegacy?, if_neg hb.1, if_neg hb.2]
  by_cases hf0 : b = 0xf0
  · simp only [if_pos hf0]
    exact .inr ⟨_, _, rfl, rfl, hcount, rfl, hrepeats, hsegment, hrex, hoperand, haddress⟩
  · simp only [if_neg hf0]
    by_cases hrep : b = 0xf2 ∨ b = 0xf3
    · simp only [if_pos hrep]
      exact .inr ⟨_, _, rfl, rfl, hcount, hlock, rfl, hsegment, hrex, hoperand, haddress⟩
    · simp only [if_neg hrep]
      cases segmentOverride? b with
      | none => exact .inl ⟨rfl, rfl⟩
      | some segment =>
          exact .inr ⟨_, _, rfl, rfl, hcount, hlock, hrepeats, rfl, hrex, hoperand, haddress⟩

theorem Prefixes.Resized.add? (hmodes : OppositeModes mode mode') (hp : p.Resized p')
    (hb : b ≠ 0x66 ∧ b ≠ 0x67) :
    p.add? mode b = none ∧ p'.add? mode' b = none ∨
      ∃ q q', p.add? mode b = some q ∧ p'.add? mode' b = some q' ∧ q.Resized q' := by
  obtain ⟨hmode, hmode'⟩ := hmodes.not_long
  rw [add?_of_not_long hmode, add?_of_not_long hmode']
  rcases hp.addLegacy? hb with ⟨hnone, hnone'⟩ | ⟨q, q', hsome, hsome', hq⟩
  · rw [hnone, hnone']
    exact .inl ⟨rfl, rfl⟩
  · rw [hsome, hsome']
    refine .inr ⟨_, _, rfl, rfl, ?_, hq.lock_eq, hq.repeats_eq, hq.segment_eq, rfl,
      hq.operandSize_eq, hq.addressSize_eq⟩
    show q'.count + 1 = q.count + 1 + 2
    rw [hq.count_eq]

theorem Prefixes.Resized.foldlM_add? {run : List UInt8} (hmodes : OppositeModes mode mode')
    (hp : p.Resized p') (hplain : ∀ b ∈ run, b ≠ 0x66 ∧ b ≠ 0x67)
    (hrun : run.foldlM (Prefixes.add? mode) p = some q) :
    ∃ q', run.foldlM (Prefixes.add? mode') p' = some q' ∧ q.Resized q' := by
  induction run generalizing p p' with
  | nil =>
      cases hrun
      exact ⟨p', rfl, hp⟩
  | cons b bs ih =>
      rw [List.foldlM_cons] at hrun
      obtain ⟨p₁, hadd, hrest⟩ := Option.bind_eq_some_iff.mp hrun
      rcases hp.add? hmodes (hplain b List.mem_cons_self) with
        ⟨hnone, -⟩ | ⟨p₂, p₂', hsome, hsome', hp₂⟩
      · cases hadd.symm.trans hnone
      · cases hadd.symm.trans hsome
        rw [List.foldlM_cons, hsome']
        exact ih hp₂ (fun c hc => hplain c (List.mem_cons_of_mem b hc)) hrest

theorem foldlM_add?_sizes {run : List UInt8} (hmodes : OppositeModes mode mode')
    (hplain : ∀ b ∈ run, b ≠ 0x66 ∧ b ≠ 0x67)
    (hrun : run.foldlM (Prefixes.add? mode) {} = some q) :
    ∃ q', ([0x66, 0x67] ++ run).foldlM (Prefixes.add? mode') {} = some q' ∧ q.Resized q' := by
  let sizes : Prefixes :=
    { count := 2, slots := #v[0, 0, 0x66, 0x67], operandSize := true, addressSize := true }
  have hsizes : [0x66, 0x67].foldlM (Prefixes.add? mode') {} = some sizes := by
    rcases hmodes with ⟨-, rfl⟩ | ⟨-, rfl⟩ <;> rfl
  have hresized : Prefixes.Resized {} sizes :=
    ⟨rfl, rfl, rfl, rfl, rfl, ⟨rfl, rfl⟩, rfl, rfl⟩
  rw [List.foldlM_append, hsizes]
  exact hresized.foldlM_add? hmodes hplain hrun

def legacyHead (mode : Width) (p : Prefixes) : Head :=
  { mode, prefixes := p }

theorem ofBytes?_of_isLong (hmode : mode'.isLong = mode.isLong) (bs : List UInt8) :
    Escape.ofBytes? mode' bs = Escape.ofBytes? mode bs := by
  cases bs with
  | nil => rfl
  | cons b bs => simp only [Escape.ofBytes?, hmode]

/-- How a legacy head is read from the byte behind its prefixes. -/
theorem readHeadFrom_end_legacy {s u : Nat} {bs : List UInt8} {h : Head} {t : Tape}
    (hadd : p.add? mode b = none) (hrun : readHeadFrom mode p ⟨s, u, b :: bs⟩ = .ok h t)
    (hlegacy : h.encoding = .legacy) :
    Escape.ofBytes? mode (b :: bs) = none ∧ h = legacyHead mode p ∧ t = ⟨s, u, b :: bs⟩ := by
  cases hesc : Escape.ofBytes? mode (b :: bs) with
  | none =>
      rw [readHeadFrom_legacy hadd hesc] at hrun
      cases hrun
      exact ⟨rfl, rfl, rfl⟩
  | some escape =>
      rw [readHeadFrom_vector hadd hesc] at hrun
      obtain rfl := Escape.lead_of_ofBytes? hesc
      obtain ⟨bytes, -, hescapes, hlead, -⟩ := readEscaped_took hrun
      rw [hlegacy] at hescapes
      obtain rfl : bytes = [] := hescapes
      cases hlead

/-- What a legacy head is read from: prefixes, and a byte that is no prefix and begins no escape. -/
theorem of_readHead_legacy {bs : List UInt8} {h : Head} {t : Tape}
    (hrun : readHead mode { rest := bs } = .ok h t) (hlegacy : h.encoding = .legacy) :
    ∃ run b more, bs = run ++ b :: more ∧ run.length = h.prefixes.count ∧
      run.foldlM (Prefixes.add? mode) {} = some h.prefixes ∧ h.prefixes.add? mode b = none ∧
      Escape.ofBytes? mode (b :: more) = none ∧ h = legacyHead mode h.prefixes ∧
      t = ⟨0, run.length, b :: more⟩ := by
  obtain ⟨run, escape, htook, rfl, hspelled⟩ := readHeadFrom_took mode {} hrun
  have hlength : h.prefixes.count = run.length := hspelled.count_eq.trans (Nat.zero_add _)
  have hescape : escape = [] := by
    have hescapes := hspelled.escapes
    rw [hlegacy] at hescapes
    exact hescapes
  obtain ⟨b, hhead, hend⟩ := hspelled.ended
  rw [hescape, List.nil_append] at hhead
  obtain ⟨more, hmore⟩ := List.head?_eq_some_iff.mp hhead
  have hbytes : bs = run ++ b :: more := by
    have hrest := htook.rest_eq
    rw [hescape, List.append_nil, hmore] at hrest
    exact hrest
  have hscan : readHeadFrom h.mode h.prefixes ⟨0, 0 + run.length, b :: more⟩ = .ok h t := by
    rw [← readHeadFrom_run hspelled.prefixes_eq (hspelled.count_le (Nat.zero_le _)), ← hbytes]
    exact hrun
  obtain ⟨hesc, hh, ht⟩ := readHeadFrom_end_legacy hend hscan hlegacy
  rw [Nat.zero_add] at ht
  exact ⟨run, b, more, hbytes, hlength.symm, hspelled.prefixes_eq, hend, hesc, hh, ht⟩

theorem ne_size_of_add?_eq_none (hmode : mode.isLong = false) (hadd : p.add? mode b = none) :
    b ≠ 0x66 ∧ b ≠ 0x67 := by
  rw [add?_of_not_long hmode] at hadd
  constructor <;> rintro rfl <;> cases hadd

theorem Prefixes.Resized.add?_eq_none (hmodes : OppositeModes mode mode') (hp : p.Resized p')
    (hadd : p.add? mode b = none) : p'.add? mode' b = none := by
  rcases hp.add? hmodes (ne_size_of_add?_eq_none hmodes.not_long.1 hadd) with
    ⟨-, hnone⟩ | ⟨q, q', hsome, -⟩
  · exact hnone
  · cases hadd.symm.trans hsome

/-- The head of a legacy instruction, and the head with the size prefixes in front. -/
theorem readHead_resized (hmodes : OppositeModes mode mode') {bs : List UInt8} {h : Head}
    {t : Tape} (hrun : readHead mode { rest := bs } = .ok h t) (hlegacy : h.encoding = .legacy)
    (hplain : ∀ b ∈ bs.take h.prefixes.count, b ≠ 0x66 ∧ b ≠ 0x67)
    (hcount : h.prefixes.count ≤ 12) :
    ∃ p p', h = legacyHead mode p ∧ p.Resized p' ∧
      readHead mode' { rest := [0x66, 0x67] ++ bs } = .ok (legacyHead mode' p') (t.later 2) := by
  obtain ⟨run, b, more, rfl, hlength, hprefixes, hend, hesc, hh, rfl⟩ :=
    of_readHead_legacy hrun hlegacy
  rw [← hlength, List.take_left] at hplain
  obtain ⟨p', hprefixes', hresized⟩ := foldlM_add?_sizes hmodes hplain hprefixes
  obtain ⟨hmode, hmode'⟩ := hmodes.not_long
  have hesc' := (ofBytes?_of_isLong (hmode'.trans hmode.symm) (b :: more)).trans hesc
  have hcount' : p'.count ≤ Prefixes.maxCount := by
    rw [hresized.count_eq, Prefixes.maxCount]
    omega
  refine ⟨h.prefixes, p', hh, hresized, ?_⟩
  have hscan := readHeadFrom_run hprefixes' hcount' 0 0 (b :: more)
  rw [readHeadFrom_legacy (hresized.add?_eq_none hmodes hend) hesc', Nat.zero_add] at hscan
  exact hscan

/-! ## The row

In front of an instruction, `66` may also become its mandatory prefix. Both heads select
the same rows but for those that ask for `66` or for no prefix. So it has to be seen that
no bytes select a row which ignores the prefix together with one that needs it, and this
is a check of pairs in the table. -/

/-- Whether a pattern ignores mandatory prefixes, or needs `66`. -/
def Pattern.meets66 (p : Pattern) : Bool :=
  p.mandatory.all (· == .p66)

/-- Two such rows rule each other out, unless both ignore the prefix or both need it. -/
theorem meets66_table :
    allPairsByKey (fun r : Row => r.pattern.key)
      (fun r s => r.pattern.mandatory == s.pattern.mandatory ||
        r.pattern.excludes s.pattern) 10
      (table.filter fun r => r.pattern.meets66) = true := by
  decide +kernel

variable {h h' : Head} {opcode : Opcode} {next : UInt8} {r s : Row}

/-- Of rows that are selected together, `66` leads to all or none. -/
theorem mandatory_eq_of_selects (hr : r ∈ table) (hs : s ∈ table)
    (hrsel : h.selects opcode next r = true) (hssel : h.selects opcode next s = true)
    (hr66 : r.pattern.meets66 = true) (hs66 : s.pattern.meets66 = true) :
    r.pattern.mandatory = s.pattern.mandatory := by
  let rows := (table.filter fun r => r.pattern.meets66).filter (h.selects opcode next)
  have hpairs : rows.Pairwise fun a b => a.pattern.mandatory = b.pattern.mandatory := by
    refine List.pairwise_filter.mpr ?_
    refine (pairwise_of_allPairsByKey meets66_table).imp fun {a b} hcheck ha hb => ?_
    have hpass := hcheck (by rw [Pattern.key_eq ha, Pattern.key_eq hb])
    rw [Pattern.excludes_eq_false ha hb, Bool.or_false] at hpass
    exact eq_of_beq hpass
  have : Std.Symm fun a b : Row => a.pattern.mandatory = b.pattern.mandatory :=
    ⟨fun _ _ => Eq.symm⟩
  have hrmem : r ∈ rows := List.mem_filter.mpr ⟨List.mem_filter.mpr ⟨hr, hr66⟩, hrsel⟩
  have hsmem : s ∈ rows := List.mem_filter.mpr ⟨List.mem_filter.mpr ⟨hs, hs66⟩, hssel⟩
  exact List.Pairwise.forall_of_forall (R := fun a b => a.pattern.mandatory = b.pattern.mandatory)
    (fun _ _ => rfl) hpairs hrmem hsmem

/-- The mandatory prefix of a legacy head: as it was if it is a repeat prefix, else `66`. -/
theorem Prefixes.Resized.mandatory (hp : p.Resized p') (mode mode' : Width) :
    (legacyHead mode p).mandatory = .none ∧ (legacyHead mode' p').mandatory = .p66 ∨
      (legacyHead mode' p').mandatory = (legacyHead mode p).mandatory ∧
        ((legacyHead mode p).mandatory = .pF2 ∨ (legacyHead mode p).mandatory = .pF3) := by
  simp only [Head.mandatory, legacyHead, if_true, hp.repeats_eq, hp.operandSize_eq.1,
    hp.operandSize_eq.2]
  cases p.repeats with
  | none => exact .inl ⟨rfl, rfl⟩
  | some b =>
      refine .inr ⟨rfl, ?_⟩
      by_cases hb : b = 0xf3
      · exact .inr (if_pos hb)
      · exact .inl (if_neg hb)

/-- Of a pattern, only the mandatory prefix tells the two heads apart. -/
theorem acceptsHead_resized (hmodes : OppositeModes mode mode') (hp : p.Resized p')
    {pat : Pattern} (hmandatory : pat.mandatory.all (· == (legacyHead mode' p').mandatory) =
      pat.mandatory.all (· == (legacyHead mode p).mandatory)) :
    pat.acceptsHead (legacyHead mode' p') = pat.acceptsHead (legacyHead mode p) := by
  obtain ⟨hmode, hmode'⟩ := hmodes.not_long
  have hrex : ∀ rexBit payload, (legacyHead mode' p').extensionBit rexBit payload =
      (legacyHead mode p).extensionBit rexBit payload := by
    intro rexBit payload
    simp only [Head.extensionBit, legacyHead, hp.rex_eq]
  have hlong : (legacyHead mode' p').mode.isLong = (legacyHead mode p).mode.isLong :=
    hmode'.trans hmode.symm
  simp only [Pattern.acceptsHead, Head.w, Head.bExt, hmandatory, hrex, hlong]
  rfl

theorem mandatory_eq_of_acceptsHead {pat : Pattern} {m : Mandatory}
    (hpat : pat.acceptsHead h = true) (hm : pat.mandatory = some m) : m = h.mandatory := by
  rw [Pattern.acceptsHead, hm] at hpat
  simp only [Bool.and_eq_true, Option.all_some, beq_iff_eq] at hpat
  exact hpat.1.1.1.1

theorem acceptsHead_of_selects (hr : h.selects opcode next r = true) :
    r.pattern.acceptsHead h = true := by
  obtain ⟨-, -, -, haccepts⟩ := Head.selects_iff.mp hr
  exact Pattern.acceptsHead_of_accepts haccepts

/-- Without a size prefix, no row is selected by `66`; with one, none by its absence. -/
theorem mandatory_ne_p66 (hp : p.Resized p') {pat : Pattern}
    (hpat : pat.acceptsHead (legacyHead mode p) = true) : pat.mandatory ≠ some .p66 := by
  intro hm
  have hmandatory := hp.mandatory mode mode
  rw [← mandatory_eq_of_acceptsHead hpat hm] at hmandatory
  rcases hmandatory with ⟨h, -⟩ | ⟨-, h | h⟩ <;> cases h

theorem mandatory_ne_none (hp : p.Resized p') {pat : Pattern}
    (hpat : pat.acceptsHead (legacyHead mode' p') = true) : pat.mandatory ≠ some .none := by
  intro hm
  have heq := mandatory_eq_of_acceptsHead hpat hm
  rcases hp.mandatory mode' mode' with ⟨-, h⟩ | ⟨h, h' | h'⟩
  · cases heq.trans h
  · cases heq.trans (h.trans h')
  · cases heq.trans (h.trans h')

/-- Both heads select the same rows, apart from those that ask for `66` or its absence. -/
theorem selects_resized (hmodes : OppositeModes mode mode') (hp : p.Resized p')
    (hnone : r.pattern.mandatory ≠ some .none) (h66 : r.pattern.mandatory ≠ some .p66) :
    (legacyHead mode' p').selects opcode next r = (legacyHead mode p).selects opcode next r := by
  have hmandatory : r.pattern.mandatory.all (· == (legacyHead mode' p').mandatory) =
      r.pattern.mandatory.all (· == (legacyHead mode p).mandatory) := by
    rcases hp.mandatory mode mode' with ⟨hm, hm'⟩ | ⟨hm, -⟩
    · rw [hm, hm']
      cases hr : r.pattern.mandatory with
      | none => rfl
      | some m =>
          cases m with
          | none => exact absurd hr hnone
          | p66 => exact absurd hr h66
          | pF2 => rfl
          | pF3 => rfl
    · rw [hm]
  simp only [Head.selects, Pattern.accepts, acceptsHead_resized hmodes hp hmandatory]
  rfl

/-- A row that `66` selects is not selected together with one that was selected without. -/
theorem mandatory_ne_p66_of_selects (hp : p.Resized p') (hr : r ∈ table) (hs : s ∈ table)
    (hnone : r.pattern.mandatory ≠ some .none)
    (hrsel : (legacyHead mode p).selects opcode next r = true)
    (hrsel' : (legacyHead mode' p').selects opcode next r = true)
    (hssel' : (legacyHead mode' p').selects opcode next s = true) :
    s.pattern.mandatory ≠ some .p66 := by
  intro hm
  have h66 := mandatory_eq_of_acceptsHead (acceptsHead_of_selects hssel') hm
  rcases hp.mandatory mode mode' with ⟨hplain, -⟩ | ⟨h, h' | h'⟩
  · -- without a repeat prefix, the row that was chosen before ignores mandatory prefixes
    have hagnostic : r.pattern.mandatory = none := by
      cases hrm : r.pattern.mandatory with
      | none => rfl
      | some m =>
          rw [mandatory_eq_of_acceptsHead (acceptsHead_of_selects hrsel) hrm, hplain] at hrm
          exact absurd hrm hnone
    have hsame := mandatory_eq_of_selects hr hs hrsel' hssel'
      (by rw [Pattern.meets66, hagnostic]; rfl) (by rw [Pattern.meets66, hm]; rfl)
    rw [hagnostic, hm] at hsame
    cases hsame
  · cases h66.trans (h.trans h')
  · cases h66.trans (h.trans h')

/-- The row that was the most specific one still is. -/
theorem isOnlyMostSpecific_resized (hmodes : OppositeModes mode mode') (hp : p.Resized p')
    (hnone : r.pattern.mandatory ≠ some .none)
    (hr : IsOnlyMostSpecific (fun r : Row => r.pattern.specificity)
      ((legacyHead mode p).selects opcode next) table r) :
    IsOnlyMostSpecific (fun r : Row => r.pattern.specificity)
      ((legacyHead mode' p').selects opcode next) table r := by
  obtain ⟨hsel, before, after, hsplit, hless⟩ := hr
  have hr66 := mandatory_ne_p66 hp (acceptsHead_of_selects hsel)
  have hsel' := (selects_resized hmodes hp hnone hr66).trans hsel
  refine ⟨hsel', before, after, hsplit, fun s hs hssel' => hless s hs ?_⟩
  have hmem : r ∈ table ∧ s ∈ table := by
    rw [hsplit]
    refine ⟨List.mem_append_right _ List.mem_cons_self, ?_⟩
    rcases List.mem_append.mp hs with hs | hs
    · exact List.mem_append_left _ hs
    · exact List.mem_append_right _ (List.mem_cons_of_mem r hs)
  have hsnone := mandatory_ne_none hp (acceptsHead_of_selects hssel')
  have hs66 := mandatory_ne_p66_of_selects hp hmem.1 hmem.2 hnone hsel hsel' hssel'
  rw [← selects_resized hmodes hp hsnone hs66]
  exact hssel'

theorem chooseRow_eq_ok_iff (h : Head) (opcode : Opcode) (next : UInt8) (r : Row) :
    chooseRow (candidates h.encoding opcode.map opcode.byte) h (some next) = .ok r ↔
      IsOnlyMostSpecific (fun r : Row => r.pattern.specificity) (h.selects opcode next)
        table r := by
  rw [chooseRow_some, ← mostSpecific_filter_eq_some_iff (tieFree_table h opcode next)]
  cases mostSpecific _ (table.filter (h.selects opcode next)) with
  | none => exact iff_of_false (fun h => by cases h) (fun h => by cases h)
  | some s => rw [Except.ok.injEq, Option.some.injEq]

/-- Both heads choose the same row, if it does not ask for the absence of `66`. -/
theorem chooseRow_resized (hmodes : OppositeModes mode mode') (hp : p.Resized p')
    (hnone : r.pattern.mandatory ≠ some .none) {next : Option UInt8}
    (hchoose : chooseRow (candidates (legacyHead mode p).encoding opcode.map opcode.byte)
      (legacyHead mode p) next = .ok r) :
    chooseRow (candidates (legacyHead mode' p').encoding opcode.map opcode.byte)
      (legacyHead mode' p') next = .ok r := by
  have hsome : ∀ m, chooseRow (candidates (legacyHead mode p).encoding opcode.map opcode.byte)
      (legacyHead mode p) (some m) = .ok r →
        chooseRow (candidates (legacyHead mode' p').encoding opcode.map opcode.byte)
          (legacyHead mode' p') (some m) = .ok r := by
    intro m hm
    have hmeant := (chooseRow_eq_ok_iff (legacyHead mode p) opcode m r).mp hm
    exact (chooseRow_eq_ok_iff (legacyHead mode' p') opcode m r).mpr
      (isOnlyMostSpecific_resized hmodes hp hnone hmeant)
  have hencoding : (legacyHead mode' p').encoding = (legacyHead mode p).encoding := rfl
  cases next with
  | some m => exact hsome m hchoose
  | none =>
      -- at the end of the bytes a row is chosen only if none of its opcode has a ModRM byte, and
      -- then any byte would do
      rcases needsModrm_candidates (legacyHead mode p).encoding opcode.map opcode.byte with
        hneeds | hlacks
      · obtain ⟨fault, herror, -⟩ := chooseRow_none_of_needsModrm (h := legacyHead mode p) hneeds
        cases hchoose.symm.trans herror
      · have hlacks' : ∀ r ∈ candidates (legacyHead mode' p').encoding opcode.map opcode.byte,
            r.needsModrm = false := by
          rw [hencoding]
          exact hlacks
        rw [← chooseRow_of_not_needsModrm hlacks (some 0)] at hchoose
        rw [← chooseRow_of_not_needsModrm hlacks' (some 0)]
        exact hsome 0 hchoose

theorem operandSizeOf_resized (hmodes : OppositeModes mode mode') (hp : p.Resized p')
    (h66 : r.pattern.mandatory ≠ some .p66) :
    operandSizeOf (legacyHead mode' p') r = operandSizeOf (legacyHead mode p) r := by
  obtain ⟨hplain, hsized⟩ := hp.operandSize_eq
  rcases hmodes with ⟨rfl, rfl⟩ | ⟨rfl, rfl⟩ <;>
    simp [operandSizeOf, sizeOverride, legacyHead, Width.isLong, hplain, hsized, h66]

theorem addressSizeOf_resized (hmodes : OppositeModes mode mode') (hp : p.Resized p') :
    addressSizeOf (legacyHead mode' p') = addressSizeOf (legacyHead mode p) := by
  obtain ⟨hplain, hsized⟩ := hp.addressSize_eq
  rcases hmodes with ⟨rfl, rfl⟩ | ⟨rfl, rfl⟩ <;>
    simp only [addressSizeOf, legacyHead, hplain, hsized]

/-- A legacy head leaves nothing to refuse. -/
theorem readRow_legacyHead {modrm : Option UInt8} {t t' : Tape}
    (hrun : readModrm r t = .ok modrm t') :
    readRow (legacyHead mode p) opcode r t = .ok
      { head := legacyHead mode p, opcode, row := r, modrm
        operandSize := operandSizeOf (legacyHead mode p) r
        addressSize := addressSizeOf (legacyHead mode p)
        vectorLength := .v128, control := .none } t' :=
  bind_ok hrun

/-- The frame with the size prefixes in front is alike. -/
theorem readSelector_resized (hmodes : OppositeModes mode mode') (hp : p.Resized p')
    {f : Frame} {t t' : Tape} (hrun : readSelector (legacyHead mode p) t = .ok f t')
    (hnone : f.row.pattern.mandatory ≠ some .none) :
    ∃ f', readSelector (legacyHead mode' p') (t.later 2) = .ok f' (t'.later 2) ∧
      f.Alike f' := by
  obtain ⟨opcode, t₁, hopcode, hselect⟩ := of_bind_ok hrun
  have hopcode' : readOpcode (legacyHead mode' p') (t.later 2) = .ok opcode (t₁.later 2) :=
    (readOpcode_lockstep (legacyHead mode p)).run_ok hopcode
  cases hchoose : chooseRow (candidates (legacyHead mode p).encoding opcode.map opcode.byte)
      (legacyHead mode p) t₁.rest.head? with
  | error fault =>
      rw [selectRow_error hchoose] at hselect
      cases hselect
  | ok row =>
      rw [selectRow_ok hchoose] at hselect
      obtain ⟨modrm, t₂, hmodrm, -⟩ := of_bind_ok hselect
      rw [readRow_legacyHead hmodrm] at hselect
      cases hselect
      have h66 := mandatory_ne_p66 hp (Pattern.acceptsHead_of_accepts (of_chooseRow hchoose).2)
      have hmodrm' := (readModrm_lockstep row).run_ok (d := 2) hmodrm
      have hselect' : selectRow (legacyHead mode' p') opcode (t₁.later 2) = .ok _ (t'.later 2) :=
        (selectRow_ok (t := t₁.later 2) (chooseRow_resized hmodes hp hnone hchoose)).trans
          (readRow_legacyHead hmodrm')
      obtain ⟨hmode, hmode'⟩ := hmodes.not_long
      refine ⟨_, (bind_ok hopcode').trans hselect', ?_⟩
      exact ⟨rfl, rfl, rfl, operandSizeOf_resized hmodes hp h66, addressSizeOf_resized hmodes hp,
        rfl, rfl, hmode'.trans hmode.symm, rfl, rfl, hp.rex_eq, hp.segment_eq⟩

variable {e e' : Engine} {address : UInt64} {bs : List UInt8} {f : Frame} {body : Body}
  {t : Tape}

/-- What is read of a legacy instruction is read alike behind the size prefixes. -/
theorem readParts_resized (hmodes : OppositeModes mode mode')
    (hrun : readParts mode address { rest := bs } = .ok (f, body) t) (hshort : t.used ≤ 13)
    (hlegacy : f.head.encoding = .legacy) (hnone : f.row.pattern.mandatory ≠ some .none)
    (hcount : f.head.prefixes.count ≤ 12)
    (hplain : ∀ b ∈ bs.take f.head.prefixes.count, b ≠ 0x66 ∧ b ≠ 0x67) :
    ∃ f', f.Alike f' ∧ readParts mode' (address - 2) { rest := [0x66, 0x67] ++ bs } =
      .ok (f', body) (t.later 2) := by
  obtain ⟨frame, t₂, hframe, hrest⟩ := of_bind_ok hrun
  obtain ⟨h, t₁, hhead, hselector⟩ := of_bind_ok hframe
  obtain ⟨body', t₃, hbody, hpure⟩ := of_bind_ok hrest
  cases hpure
  obtain ⟨opcode, t₄, -, hselect⟩ := of_bind_ok hselector
  obtain ⟨-, rfl, -, -⟩ := selectRow_took hselect
  obtain ⟨p, p', hh, hp, hhead'⟩ := readHead_resized hmodes hhead hlegacy hplain hcount
  rw [hh] at hselector
  obtain ⟨f', hselector', halike⟩ := readSelector_resized hmodes hp hselector hnone
  have hend : f.EndTogether 2 address (address - 2) := fun _ => UInt64.sub_add_cancel address 2
  have hfits : t.used + 2 ≤ maxLength := Nat.add_le_add_right hshort 2
  have hbody' := halike.readBody_later hend hbody hfits
  have hframe' : readFrame mode' { rest := [0x66, 0x67] ++ bs } = .ok f' (t₂.later 2) :=
    (bind_ok hhead').trans hselector'
  refine ⟨f', halike, ?_⟩
  rw [readParts, bind_ok hframe', bind_ok hbody']
  rfl

/-- Between 16-bit and 32-bit mode, the two size prefixes make up for the other mode: two bytes
earlier, the instruction has the same mnemonic, operands, text and groups. -/
theorem decodeOne_sizePrefixes {i : Instruction} {next : Nat} {t' : Tape}
    (he : e.architecture = .x86) (he' : e'.architecture = .x86)
    (hmodes : OppositeModes e.mode.width e'.mode.width)
    (hdetail : e'.options.detail = e.options.detail)
    (hfound : e.decodeOne bs 0 address = .ok (i, next)) (hshort : i.length.toNat ≤ 13)
    (hframe : readFrame e.mode.width { rest := bs } = .ok f t')
    (hlegacy : f.head.encoding = .legacy) (hnone : f.row.pattern.mandatory ≠ some .none)
    (hcount : f.head.prefixes.count ≤ 12)
    (hplain : ∀ b ∈ bs.take f.head.prefixes.count, b ≠ 0x66 ∧ b ≠ 0x67) :
    ∃ i', e'.decodeOne (0x66 :: 0x67 :: bs) 0 (address - 2) = .ok (i', next + 2) ∧
      i'.mnemonic = i.mnemonic ∧ i'.operands = i.operands ∧
      i'.operandText = i.operandText ∧ i'.groups = i.groups := by
  have hlength := Engine.next_of_decodeOne hfound
  obtain ⟨f₁, body, t, -, hparts, rfl, rfl⟩ := parts_of_decodeOne he hfound
  obtain ⟨f₂, t₁, hframe₁, hrest⟩ := of_bind_ok hparts
  obtain ⟨body', t₂, -, hpure⟩ := of_bind_ok hrest
  cases hpure
  cases hframe.symm.trans hframe₁
  have hused : t.used ≤ 13 := by omega
  obtain ⟨f', halike, hparts'⟩ :=
    readParts_resized hmodes hparts hused hlegacy hnone hcount hplain
  have hrun : readParts e'.mode.width (address - 2)
      (Tape.ofOffset (0x66 :: 0x67 :: bs) 0) = .ok (f', body) (t.later 2) := hparts'
  have hfound' := decodeOne_of_parts he' (Nat.zero_le _) hrun
  have hnext : 0 + (t.later 2).used = 0 + t.used + 2 := (Nat.add_assoc 0 t.used 2).symm
  rw [hnext] at hfound'
  refine ⟨_, hfound', ?_, rfl, ?_, ?_⟩
  · show Mnemonic.x86 f'.mnemonic = .x86 f.mnemonic
    rw [halike.mnemonic]
  · show operandsText f' body.operands = operandsText f body.operands
    rw [halike.operandsText]
  · simp only [instructionOf, halike.row_eq, hdetail]

/-- A conditional branch with a segment in front, as it is written in each of the modes. -/
theorem decodeOne_sizePrefixes_je :
    ∃ i i', Engine.x86Of32.decodeOne [0x2e, 0x0f, 0x84, 0x10, 0, 0, 0] 0 0x1000 = .ok (i, 7) ∧
      i.operands.map Operand.kind = [.immediate 0x1017] ∧
      Engine.x86Of16.decodeOne [0x66, 0x67, 0x2e, 0x0f, 0x84, 0x10, 0, 0, 0] 0 0xffe =
        .ok (i', 9) ∧
      i'.mnemonic = i.mnemonic ∧ i'.operands = i.operands ∧
      i'.operandText = i.operandText ∧ i'.groups = i.groups := by
  have hmodes : OppositeModes Engine.x86Of32.mode.width Engine.x86Of16.mode.width :=
    .inl ⟨by decide, by decide⟩
  have hread : (match readParts Engine.x86Of32.mode.width 0x1000
        (Tape.ofOffset [0x2e, 0x0f, 0x84, 0x10, 0, 0, 0] 0) with
      | .ok (f, body) t => some (f.head.encoding, f.row.pattern.mandatory,
          f.head.prefixes.count, body.operands.map Operand.kind, t.used)
      | .error _ _ => none) = some (.legacy, none, 1, [.immediate 0x1017], 7) := by
    decide +kernel
  cases hparts : readParts Engine.x86Of32.mode.width 0x1000
      (Tape.ofOffset [0x2e, 0x0f, 0x84, 0x10, 0, 0, 0] 0) with
  | error err t =>
      rw [hparts] at hread
      cases hread
  | ok parts t =>
      rw [hparts] at hread
      obtain ⟨f, body⟩ := parts
      obtain ⟨hlegacy, hmandatory, hcount, hkinds, hused⟩ :
          f.head.encoding = .legacy ∧ f.row.pattern.mandatory = none ∧
            f.head.prefixes.count = 1 ∧ body.operands.map Operand.kind = [.immediate 0x1017] ∧
            t.used = 7 := by
        simpa only [Option.some.injEq, Prod.mk.injEq] using hread
      have hfound := decodeOne_of_parts rfl (Nat.zero_le _) hparts
      have hlength := Engine.next_of_decodeOne hfound
      obtain ⟨f', t', hframe, hrest⟩ := of_bind_ok hparts
      obtain ⟨body', t'', -, hpure⟩ := of_bind_ok hrest
      cases hpure
      rw [hused] at hfound hlength
      have hnone : f.row.pattern.mandatory ≠ some .none := by
        intro hsome
        cases hmandatory.symm.trans hsome
      have hplain : ∀ b ∈ [(0x2e : UInt8), 0x0f, 0x84, 0x10, 0, 0, 0].take
          f.head.prefixes.count, b ≠ 0x66 ∧ b ≠ 0x67 := by
        rw [hcount]
        exact List.forall_mem_singleton.mpr (by decide)
      obtain ⟨i', hfound', hsame⟩ := decodeOne_sizePrefixes rfl rfl hmodes rfl hfound
        (by omega) hframe hlegacy hnone (hcount.le.trans (by decide)) hplain
      exact ⟨_, i', hfound, hkinds, hfound', hsame⟩

end MachineCode.X86
