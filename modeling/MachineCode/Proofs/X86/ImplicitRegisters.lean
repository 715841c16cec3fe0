import MachineCode.Proofs.Distinct
import MachineCode.Proofs.X86.RegisterNumbers

/-!
# Implicit registers

A list of implicit registers has three sources: what the row names, the flags
register if the row has an effect on it, and the count register of a repeated
string instruction. The sources may overlap, and repetitions are dropped, so what
is said of the list is said of membership. Then it is enough that rows name
neither the flags register nor the absent one, which is looked up in the table.

A string instruction is known by its opcode byte. The byte is no escape, so the
head in front of it is a run of prefix bytes and nothing else. Some rows are
selected by a repeat prefix, which is used up then; those of string instructions
are not.
-/

namespace MachineCode.X86

open Bytes Read

variable {f : Frame} {mode : Width} {run after : List UInt8} {op : UInt8} {t t' : Tape}
  {uses : List Implicit} {u : Implicit}

theorem general_bits (number : UInt8) (w : Width) (extended : Bool) :
    Register.general number w.bits extended = .ofWidth w (number.toBitVec.setWidth 4) := by
  cases w <;> rfl

/-- No size and no mode make an implicit use mean the flags register or none. -/
theorem Implicit.eq_reg_of_resolve {r : Register} (hr : r = .absent ∨ r = .flags)
    (hu : u.resolve f = r) : u = .reg r := by
  have hwidth (w : Width) (n : BitVec 4) : Register.ofWidth w n ≠ r := by
    rcases hr with rfl | rfl <;> cases w <;> exact Register.noConfusion
  cases u with
  | reg r' => exact congrArg reg hu
  | ip =>
      rw [resolve] at hu
      rcases hr with rfl | rfl <;> generalize f.head.mode = w at hu <;> cases w <;> cases hu
  | _ =>
      rw [resolve, general_bits] at hu
      exact absurd hu (hwidth _ _)

theorem mem_implicitRegisters {flags : Bool} {r : MachineCode.Register} :
    r ∈ implicitRegisters f uses flags ↔
      (∃ u ∈ uses, .ofX86 (u.resolve f) = r) ∨ (flags = true ∧ r = .x86 .flags) ∨
        (f.row.repeats = true ∧ (repeatPrefix f.head f.row).isSome = true ∧
          r = .x86 (.ofWidth f.addressSize 1)) := by
  have hflags : r ∈ (if flags then [Register.flags] else []).map MachineCode.Register.ofX86 ↔
      flags = true ∧ r = .x86 .flags := by
    cases flags <;> simp [MachineCode.Register.ofX86]
  have hcount : r ∈ (if f.row.repeats && (repeatPrefix f.head f.row).isSome then
      [Register.general 1 f.addressSize.bits false] else []).map MachineCode.Register.ofX86 ↔
        f.row.repeats = true ∧ (repeatPrefix f.head f.row).isSome = true ∧
          r = .x86 (.ofWidth f.addressSize 1) := by
    cases f.row.repeats <;> cases (repeatPrefix f.head f.row).isSome <;> simp [ofX86_general]
  have huses : r ∈ (uses.map (Implicit.resolve f)).map MachineCode.Register.ofX86 ↔
      ∃ u ∈ uses, .ofX86 (u.resolve f) = r := by
    simp
  rw [implicitRegisters, mem_distinct, List.map_append, List.map_append, List.mem_append,
    List.mem_append, hflags, hcount, huses, or_assoc]

/-- What rows write down among the registers they use. -/
theorem implicit_table :
    ∀ row ∈ table, ∀ u ∈ row.implicitReads ++ row.implicitWrites,
      u ≠ .reg .absent ∧ u ≠ .reg .flags := by
  decide +kernel

/-- Uses as rows have them, which name neither the flags register nor the absent one. -/
def NamesRegisters (uses : List Implicit) : Prop :=
  ∀ u ∈ uses, u ≠ .reg .absent ∧ u ≠ .reg .flags

theorem Frame.Chosen.namesRegisters (hf : f.Chosen) :
    NamesRegisters f.row.implicitReads ∧ NamesRegisters f.row.implicitWrites := by
  have huses := implicit_table f.row (mem_candidates.mp hf.mem).1
  exact ⟨fun u hu => huses u (List.mem_append_left _ hu),
    fun u hu => huses u (List.mem_append_right _ hu)⟩

/-- The flags register is listed if the row has the effect, and never otherwise. -/
theorem flags_mem_implicitRegisters {flags : Bool} (huses : NamesRegisters uses) :
    .x86 .flags ∈ implicitRegisters f uses flags ↔ flags = true := by
  rw [mem_implicitRegisters]
  constructor
  · rintro (⟨u, hu, hr⟩ | ⟨hflags, -⟩ | ⟨-, -, hr⟩)
    · exact absurd (Implicit.eq_reg_of_resolve (.inr rfl) (eq_of_ofX86 hr)) (huses u hu).2
    · exact hflags
    · cases hw : f.addressSize <;> rw [hw] at hr <;> cases hr
  · exact fun hflags => .inr (.inl ⟨hflags, rfl⟩)

/-- Every listed register is a register of the architecture. -/
theorem exists_of_mem_implicitRegisters {flags : Bool} {r : MachineCode.Register}
    (huses : NamesRegisters uses) (hr : r ∈ implicitRegisters f uses flags) :
    ∃ r', r' ≠ .absent ∧ r = .x86 r' := by
  rcases mem_implicitRegisters.mp hr with ⟨u, hu, rfl⟩ | ⟨-, rfl⟩ | ⟨-, -, rfl⟩
  · have hne : u.resolve f ≠ .absent := fun h =>
      (huses u hu).1 (Implicit.eq_reg_of_resolve (.inl rfl) h)
    exact ⟨_, hne, if_neg hne⟩
  · exact ⟨_, Register.noConfusion, rfl⟩
  · refine ⟨_, ?_, rfl⟩
    cases f.addressSize <;> exact Register.noConfusion

/-- The numbers of the effects that test a flag. -/
def FlagEffects.testNumbers : List Nat :=
  [33, 34, 35, 36, 37, 38, 39]

-- the effects whose names say so
example : FlagEffects.testNumbers.map (fun k => (FlagEffects.effectNames.getD k ("", "")).1) =
    ["TEST_OF", "TEST_SF", "TEST_ZF", "TEST_PF", "TEST_CF", "TEST_NT", "TEST_DF"] := by
  decide

theorem and_ne_zero_iff {w : Nat} {x y : BitVec w} :
    x &&& y ≠ 0#w ↔ ∃ k, x.getLsbD k = true ∧ y.getLsbD k = true := by
  constructor
  · intro hne
    by_contra hnone
    refine hne (BitVec.eq_of_getLsbD_eq fun k _ => ?_)
    rw [BitVec.getLsbD_and, BitVec.getLsbD_zero, Bool.and_eq_false_iff]
    by_contra hboth
    simp only [not_or, Bool.not_eq_false] at hboth
    exact hnone ⟨k, hboth⟩
  · rintro ⟨k, hx, hy⟩ hzero
    have hbit := congrArg (·.getLsbD k) hzero
    simp [hx, hy] at hbit

namespace FlagEffects

theorem getLsbD_tests (k : Nat) : tests.getLsbD k = decide (k ∈ testNumbers) := by
  by_cases hk : k < 64
  · revert k
    decide
  · rw [BitVec.getLsbD_of_ge _ _ (by omega)]
    simp only [testNumbers, List.mem_cons, List.not_mem_nil, or_false]
    exact (decide_eq_false (by omega)).symm

theorem readsFlags_iff (e : FlagEffects) :
    e.readsFlags = true ↔ ∃ k ∈ testNumbers, e.bits.getLsbD k = true := by
  rw [readsFlags, bne_iff_ne]
  refine and_ne_zero_iff.trans (exists_congr fun k => ?_)
  rw [getLsbD_tests, decide_eq_true_eq, and_comm]

theorem writesFlags_iff (e : FlagEffects) :
    e.writesFlags = true ↔ ∃ k, k ∉ testNumbers ∧ e.bits.getLsbD k = true := by
  rw [writesFlags, bne_iff_ne]
  refine and_ne_zero_iff.trans (exists_congr fun k => ?_)
  constructor
  · rintro ⟨hbit, hrest⟩
    rw [BitVec.getLsbD_not, getLsbD_tests, Bool.and_eq_true, Bool.not_eq_true',
      decide_eq_false_iff_not] at hrest
    exact ⟨hrest.2, hbit⟩
  · rintro ⟨hrest, hbit⟩
    have hk : k < 64 := BitVec.lt_of_getLsbD hbit
    rw [BitVec.getLsbD_not, getLsbD_tests, decide_eq_true hk, decide_eq_false hrest]
    exact ⟨hbit, rfl⟩

end FlagEffects

/-- The opcode bytes of string instructions. -/
def stringOpcodes : List UInt8 :=
  [0x6c, 0x6d, 0x6e, 0x6f, 0xa4, 0xa5, 0xa6, 0xa7, 0xaa, 0xab, 0xac, 0xad, 0xae, 0xaf]

/-- The address size behind a run of prefix bytes. -/
def addressWidth (mode : Width) (run : List UInt8) : Width :=
  if 0x67 ∈ run then if mode = .w32 then .w16 else .w32 else mode

/-- Whether some string opcode selects a row. -/
def Row.isString (row : Row) : Bool :=
  decide (row.pattern.encoding = .legacy) && decide (row.pattern.map = .primary) &&
    stringOpcodes.any row.pattern.coversOpcode

/-- String instructions are the ones that honour a repeat prefix, which takes no part in selecting
their rows. -/
theorem repeats_table :
    ∀ row ∈ table, row.repeats = row.isString ∧
      (row.repeats = true → row.pattern.mandatory = none) := by
  decide +kernel

theorem lastOf?_isSome {cls : List UInt8} :
    (lastOf? cls run).isSome = true ↔ ∃ b ∈ run, b ∈ cls := by
  simp [lastOf?]

/-- An opcode byte of the one-byte map, and the head in front of it. -/
theorem head_of_readFrame (hframe : readFrame mode t = .ok f t')
    (hrest : t.rest = run ++ op :: after) (hrun : ∀ b ∈ run, isPrefixByte mode b = true)
    (hop : isPrefixByte mode op = false) (hescape : ¬EscapesAt mode op after) (hlong : op ≠ 0x0f) :
    f.head = { mode, prefixes := .summary run } ∧ f.opcode.map = .primary ∧
      f.opcode.byte = op := by
  obtain ⟨t₁, t₂, hhead, hopcode, -⟩ := of_readFrame hframe
  have hlen : run.length < 15 := by
    refine (summarizes_of_run hrest hrun ?_).length_lt (scan_of_readHead hhead).1
    rintro b after' ⟨⟩
    exact hop
  have hscan := scan_legacy hrest hrun hlen hop hescape
  rw [readHead, hscan] at hhead
  obtain ⟨hh, rfl⟩ : _ ∧ t.advance run.length = t₁ := EStateM.Result.ok.inj hhead
  have hbyte : (t.advance run.length).rest = op :: after := by
    rw [Tape.advance, hrest, List.drop_left]
  have hread : Read.byte (t.advance run.length) = .ok op ((t.advance run.length).advance 1) := by
    rw [Read.byte, hbyte]
  rw [← hh, readOpcode, bind_ok hread, if_neg (not_not_intro rfl), if_pos hlong] at hopcode
  rw [← (EStateM.Result.ok.inj hopcode).1]
  exact ⟨hh.symm, rfl, rfl⟩

/-- A string opcode is neither a prefix nor an escape, in any mode and before any byte. -/
theorem stringOpcodes_plain (hop : op ∈ stringOpcodes) :
    isPrefixByte mode op = false ∧ ¬EscapesAt mode op after ∧ op ≠ 0x0f := by
  have hall : (stringOpcodes.all fun op => decide (op ∉ legacyPrefixes ∧ isExtension op = false ∧
      op ∉ [0xc4, 0xc5, 0x62] ∧ op ≠ 0x8f ∧ op ≠ 0x0f)) = true := by
    decide
  have hplain := of_decide_eq_true (List.all_eq_true.mp hall op hop)
  obtain ⟨hlegacy, hextension, hescape, hxop, hlong⟩ := hplain
  refine ⟨?_, ?_, hlong⟩
  · rw [isPrefixByte, decide_eq_false hlegacy, hextension, Bool.and_false, Bool.false_or]
  · rintro (⟨h, -⟩ | ⟨h, -⟩)
    · exact hescape h
    · exact hxop h

/-- The frame of a string instruction: behind a run of prefix bytes, of a row that leaves a repeat
prefix to the instruction. -/
theorem string_of_readFrame (hframe : readFrame mode t = .ok f t')
    (hrest : t.rest = run ++ op :: after) (hrun : ∀ b ∈ run, isPrefixByte mode b = true)
    (hop : op ∈ stringOpcodes) :
    f.row.repeats = true ∧ repeatPrefix f.head f.row = lastOf? [0xf2, 0xf3] run ∧
      f.addressSize = addressWidth mode run := by
  obtain ⟨hlegacy, hescape, hlong⟩ := stringOpcodes_plain hop
  obtain ⟨hhead, hmap, hbyte⟩ := head_of_readFrame hframe hrest hrun hlegacy hescape hlong
  obtain ⟨-, hf⟩ := readFrame_chosen hframe
  obtain ⟨hmem, hencoding, hrowmap, hcovers⟩ := mem_candidates.mp hf.mem
  rw [hhead] at hencoding
  rw [hmap] at hrowmap
  rw [hbyte] at hcovers
  obtain ⟨hstring, hmandatory⟩ := repeats_table f.row hmem
  have hrepeats : f.row.repeats = true := by
    rw [hstring, Row.isString, decide_eq_true hencoding, decide_eq_true hrowmap]
    exact List.any_eq_true.mpr ⟨op, hop, hcovers⟩
  refine ⟨hrepeats, ?_, ?_⟩
  · rw [repeatPrefix, hmandatory hrepeats, hhead]
    rfl
  · rw [hf.addressSize_eq, hhead, addressSizeOf, addressWidth]
    by_cases h67 : 0x67 ∈ run
    · cases mode <;> simp [Prefixes.summary, h67]
    · cases mode <;> simp [Prefixes.summary, h67]

end MachineCode.X86
