import MachineCode.Proofs.Mips.Widths
import MachineCode.Proofs.X86.ImplicitRegisters

/-!
# Well-formed register lists

The record of an instruction lists registers that it uses without naming them in
an operand. In either family these are real registers, each listed once: the rows
of one family list them that way, and the other drops repetitions. With the detail
of an x86 instruction at hand the lists can be checked against it, because the
flags register and the count register are listed for a reason that it shows.
-/

namespace MachineCode

/-- The values that stand for no register. -/
def Register.placeholders : List Register :=
  [.absent, .x86 .absent, .mips .absent]

/-- A list of registers, each once and none of them a placeholder. -/
structure ListsRegisters (regs : List Register) : Prop where
  nodup : regs.Nodup
  proper : ∀ r ∈ regs, r ∉ Register.placeholders

variable {e : Engine} {bytes : List UInt8} {offset next : Nat} {address : UInt64}
  {i : Instruction}

namespace X86

variable {f : Frame} {mode : Width}

theorem listsRegisters_implicitRegisters {uses : List Implicit} (huses : NamesRegisters uses)
    (flags : Bool) : ListsRegisters (implicitRegisters f uses flags) where
  nodup := nodup_distinct _
  proper r hr := by
    obtain ⟨r', hne, rfl⟩ := exists_of_mem_implicitRegisters huses hr
    simp [Register.placeholders, hne]

/-- The implicit registers of an instruction agree with its detail: the flags register is read if
the effects test a flag and written if they do anything else, and a string instruction behind a
repeat prefix counts in the register of the address size. -/
structure Detail.Explains (d : Detail) (mode : Width) (i : Instruction) : Prop where
  reads_flags : .x86 .flags ∈ i.implicitReads ↔
    ∃ k ∈ FlagEffects.testNumbers, d.effects.bits.getLsbD k = true
  writes_flags : .x86 .flags ∈ i.implicitWrites ↔
    ∃ k, k ∉ FlagEffects.testNumbers ∧ d.effects.bits.getLsbD k = true
  counts : ∀ run op after, i.bytes = run ++ op :: after →
    (∀ b ∈ run, isPrefixByte mode b = true) → op ∈ stringOpcodes → 0xf2 ∈ run ∨ 0xf3 ∈ run →
      d.addressSize = UInt8.ofNat (addressWidth mode run).bytes ∧
        .x86 (.ofWidth (addressWidth mode run) 1) ∈ i.implicitReads ∧
        .x86 (.ofWidth (addressWidth mode run) 1) ∈ i.implicitWrites

/-- What the lists of a decoded instruction are. -/
theorem implicit_of_decodeOne (he : e.architecture = .x86) (hdetail : e.options.detail = true)
    (h : e.decodeOne bytes offset address = .ok (i, next)) :
    ∃ f body t, readFrame e.mode.width { rest := i.bytes } = .ok f t ∧ f.Chosen ∧
      i.detail = .x86 (detailOf f body) ∧
      i.implicitReads =
        implicitRegisters f f.row.implicitReads (FlagEffects.readsFlags ⟨f.row.effects⟩) ∧
      i.implicitWrites =
        implicitRegisters f f.row.implicitWrites (FlagEffects.writesFlags ⟨f.row.effects⟩) := by
  obtain ⟨f, body, t, hframe, -, hi⟩ := body_of_decodeOne he h
  obtain ⟨-, hf⟩ := readFrame_chosen hframe
  rw [hdetail] at hi
  refine ⟨f, body, t, hframe, hf, ?_, ?_, ?_⟩ <;> rw [hi] <;> rfl

theorem explains_of_decodeOne (he : e.architecture = .x86) (hdetail : e.options.detail = true)
    (h : e.decodeOne bytes offset address = .ok (i, next)) :
    ListsRegisters i.implicitReads ∧ ListsRegisters i.implicitWrites ∧
      ∃ d, i.detail = .x86 d ∧ d.Explains e.mode.width i := by
  obtain ⟨f, body, t, hframe, hf, hd, hreads, hwrites⟩ := implicit_of_decodeOne he hdetail h
  obtain ⟨hnamesReads, hnamesWrites⟩ := hf.namesRegisters
  refine ⟨?_, ?_, _, hd, ?_, ?_, ?_⟩
  · rw [hreads]
    exact listsRegisters_implicitRegisters hnamesReads _
  · rw [hwrites]
    exact listsRegisters_implicitRegisters hnamesWrites _
  · rw [hreads]
    exact (flags_mem_implicitRegisters hnamesReads).trans (FlagEffects.readsFlags_iff _)
  · rw [hwrites]
    exact (flags_mem_implicitRegisters hnamesWrites).trans (FlagEffects.writesFlags_iff _)
  · intro run op after hbytes hrun hop hrepeat
    obtain ⟨hrepeats, hrep, hsize⟩ := string_of_readFrame hframe hbytes hrun hop
    have hsome : (repeatPrefix f.head f.row).isSome = true := by
      rw [hrep, lastOf?_isSome]
      rcases hrepeat with hmem | hmem <;> exact ⟨_, hmem, by decide⟩
    have hcount (uses : List Implicit) (flags : Bool) :
        .x86 (.ofWidth (addressWidth e.mode.width run) 1) ∈ implicitRegisters f uses flags :=
      mem_implicitRegisters.mpr (.inr (.inr ⟨hrepeats, hsome, by rw [hsize]⟩))
    rw [hreads, hwrites, ← hsize]
    exact ⟨rfl, hsize ▸ hcount _ _, hsize ▸ hcount _ _⟩

end X86

namespace Mips

theorem listsRegisters_table :
    ∀ row ∈ table, ∀ regs ∈ [row.implicitReads, row.implicitWrites],
      (regs.map Register.ofMips).Nodup ∧
        ∀ r ∈ regs.map Register.ofMips, r ∉ Register.placeholders := by
  decide +kernel

theorem listsRegisters_of_decodeOne (he : e.architecture = .mips)
    (hdetail : e.options.detail = true)
    (h : e.decodeOne bytes offset address = .ok (i, next)) :
    ListsRegisters i.implicitReads ∧ ListsRegisters i.implicitWrites := by
  obtain ⟨w, row, operands, t, -, hrun, rfl, -⟩ := parts_of_decodeOne he h
  obtain ⟨-, hrow, -⟩ := of_readParts hrun
  have htable := listsRegisters_table row (selects_of_row? hrow).1
  obtain ⟨hreads, hreads'⟩ := htable row.implicitReads (by simp)
  obtain ⟨hwrites, hwrites'⟩ := htable row.implicitWrites (by simp)
  rw [hdetail]
  exact ⟨⟨hreads, hreads'⟩, ⟨hwrites, hwrites'⟩⟩

end Mips

namespace Engine

/-- With detail, a decoded instruction lists implicit registers each once and without placeholders,
and on x86 its detail explains which of them are listed for flags and for repetition. -/
theorem decodeOne_implicit_registers (hdetail : e.options.detail = true)
    (h : e.decodeOne bytes offset address = .ok (i, next)) :
    ListsRegisters i.implicitReads ∧ ListsRegisters i.implicitWrites ∧
      (e.architecture = .x86 → ∃ d, i.detail = .x86 d ∧ d.Explains e.mode.width i) := by
  cases he : e.architecture with
  | x86 =>
      obtain ⟨hreads, hwrites, hexplains⟩ := X86.explains_of_decodeOne he hdetail h
      exact ⟨hreads, hwrites, fun _ => hexplains⟩
  | mips =>
      obtain ⟨hreads, hwrites⟩ := Mips.listsRegisters_of_decodeOne he hdetail h
      exact ⟨hreads, hwrites, fun hx86 => by cases hx86⟩

/-- `rep movsb` with 16-bit addresses in 32-bit mode counts in `cx`, and depends on the direction
flag without changing a flag. -/
theorem decodeOne_implicit_registers_movsb :
    ∃ i, x86Of32.decodeOne [0xf3, 0x67, 0xa4] 0 0x1000 = .ok (i, 3) ∧
      i.implicitReads.Nodup ∧ i.implicitWrites.Nodup ∧
      .x86 (.word 1) ∈ i.implicitReads ∧ .x86 (.word 1) ∈ i.implicitWrites ∧
      .x86 .flags ∈ i.implicitReads ∧ .x86 .flags ∉ i.implicitWrites := by
  have hread : (x86Of32.decodeOne [0xf3, 0x67, 0xa4] 0 0x1000).map
      (fun d => ((d.1.bytes, match d.1.detail with
        | .x86 detail => detail.effects.bits
        | _ => 0), d.2)) = .ok (([0xf3, 0x67, 0xa4], X86.FlagEffects.testDf), 3) := by
    decide +kernel
  obtain ⟨i, next, hrun, hshown⟩ := exists_of_map hread
  simp only [Prod.mk.injEq] at hshown
  obtain ⟨⟨hbytes, heffects⟩, rfl⟩ := hshown
  obtain ⟨hreads, hwrites, hx86⟩ := decodeOne_implicit_registers rfl hrun
  obtain ⟨d, hd, hexplains⟩ := hx86 rfl
  have hbits : d.effects.bits = X86.FlagEffects.testDf := by
    rw [hd] at heffects
    exact heffects
  obtain ⟨-, hcount, hcount'⟩ := hexplains.counts [0xf3, 0x67] 0xa4 [] hbytes
    (List.all_eq_true.mp (by decide)) (by decide) (.inr (by decide))
  refine ⟨i, hrun, hreads.nodup, hwrites.nodup, hcount, hcount', ?_, ?_⟩
  · rw [hexplains.reads_flags, hbits]
    decide
  · rw [hexplains.writes_flags, hbits]
    rintro ⟨k, hk, hbit⟩
    rw [X86.FlagEffects.testDf, X86.FlagEffects.bit, BitVec.getLsbD_twoPow, Bool.and_eq_true,
      decide_eq_true_eq, decide_eq_true_eq] at hbit
    exact hk (hbit.2 ▸ (by decide))

end Engine

end MachineCode
