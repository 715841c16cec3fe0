import MachineCode.Instruction
import MachineCode.Proofs.Distinct

/-!
# Accounts of registers

An instruction gives an account of the registers that it reads, and one of those
that it writes. Both collect uses from the left, first the implicit ones and then
operand by operand, and both leave out what is no register. That an account is
exact says five things: no register is named twice, none is missing, none is
there without a use, the implicit ones are in front, and otherwise a register
stands where its first use does.

Which uses there are is said here once more, as a relation between an operand and
a register with one constructor for each way to use one, so that nothing depends
on how the uses are collected.
-/

namespace MachineCode

/-- The ways for an operand to read a register. The registers of an address are read whatever
happens to the memory there. -/
inductive Operand.Reads (o : Operand) : Register → Prop where
  | register {r : Register} (kind_eq : o.kind = .register r)
      (access : o.access = .read ∨ o.access = .readWrite) : o.Reads r
  | segment {m : MemoryRef} (kind_eq : o.kind = .memory m) : o.Reads m.segment
  | base {m : MemoryRef} (kind_eq : o.kind = .memory m) : o.Reads m.base
  | index {m : MemoryRef} (kind_eq : o.kind = .memory m) : o.Reads m.index
  | mask : o.Reads o.mask

/-- The one way for an operand to write a register. -/
inductive Operand.Writes (o : Operand) : Register → Prop where
  | register {r : Register} (kind_eq : o.kind = .register r)
      (access : o.access = .write ∨ o.access = .readWrite) : o.Writes r

theorem Access.isRead_iff {a : Access} : a.isRead = true ↔ a = .read ∨ a = .readWrite := by
  cases a <;> decide

theorem Access.isWrite_iff {a : Access} : a.isWrite = true ↔ a = .write ∨ a = .readWrite := by
  cases a <;> decide

theorem Register.present_iff {r : Register} : r.present = true ↔ r ≠ .absent :=
  decide_eq_true_iff

theorem MemoryRef.mem_registers {m : MemoryRef} {r : Register} :
    r ∈ m.registers ↔ r ≠ .absent ∧ (r = m.segment ∨ r = m.base ∨ r = m.index) := by
  rw [registers, List.mem_filter, Register.present_iff, and_comm]
  simp only [List.mem_cons, List.not_mem_nil, or_false]

theorem Operand.mem_registersRead {o : Operand} {r : Register} (hr : r ≠ .absent) :
    r ∈ o.registersRead ↔ o.Reads r := by
  rw [registersRead, List.mem_append, List.mem_singleton]
  constructor
  · rintro (hkind | rfl)
    · split at hkind
      · next r' heq =>
          split at hkind
          · next haccess =>
              cases List.mem_singleton.mp hkind
              exact .register heq (Access.isRead_iff.mp haccess)
          · cases hkind
      · next m heq =>
          rcases (MemoryRef.mem_registers.mp hkind).2 with rfl | rfl | rfl
          · exact .segment heq
          · exact .base heq
          · exact .index heq
      · cases hkind
    · exact .mask
  · intro h
    cases h with
    | register kind_eq access =>
        rw [kind_eq]
        simp only [Access.isRead_iff.mpr access, if_true]
        exact .inl List.mem_cons_self
    | segment kind_eq | base kind_eq | index kind_eq =>
        rw [kind_eq]
        exact .inl (MemoryRef.mem_registers.mpr ⟨hr, by simp⟩)
    | mask => exact .inr rfl

theorem Operand.mem_registersWritten {o : Operand} {r : Register} :
    r ∈ o.registersWritten ↔ o.Writes r := by
  rw [registersWritten]
  constructor
  · intro hkind
    split at hkind
    · next r' heq =>
        split at hkind
        · next haccess =>
            cases List.mem_singleton.mp hkind
            exact .register heq (Access.isWrite_iff.mp haccess)
        · cases hkind
    · cases hkind
  · rintro ⟨kind_eq, access⟩
    rw [kind_eq]
    simp only [Access.isWrite_iff.mpr access, if_true]
    exact List.mem_cons_self

/-- An exact account of the registers in a row of implicit uses and a row of uses by operands. -/
structure Account (implicit explicit : List Register) (used : Register → Prop)
    (account : List Register) : Prop where
  nodup : account.Nodup
  absent_not_mem : .absent ∉ account
  mem_iff : ∀ r, r ∈ account ↔ r ≠ .absent ∧ (r ∈ implicit ∨ used r)
  /-- In front of an implicit entry there are none but implicit ones. -/
  implicit_first : account.Pairwise fun r s => s ∈ implicit → r ∈ implicit
  /-- The entries have the order of their first uses. -/
  order : account.Pairwise fun r s =>
    (implicit ++ explicit).idxOf r < (implicit ++ explicit).idxOf s

theorem account_distinct {implicit explicit : List Register} {used : Register → Prop}
    (hused : ∀ r, r ≠ .absent → (r ∈ explicit ↔ used r)) :
    Account implicit explicit used
      (distinct ((implicit ++ explicit).filter Register.present)) := by
  have hmem (r : Register) : r ∈ distinct ((implicit ++ explicit).filter Register.present) ↔
      r ≠ .absent ∧ (r ∈ implicit ∨ used r) := by
    rw [mem_distinct, List.mem_filter, List.mem_append, Register.present_iff, and_comm]
    exact and_congr_right fun hr => or_congr_right (hused r hr)
  have horder := pairwise_distinct_filter Register.present (implicit ++ explicit)
  refine ⟨nodup_distinct _, fun h => ((hmem _).mp h).1 rfl, hmem, ?_, horder⟩
  refine horder.imp fun {r s} hlt hs => ?_
  -- the first use of an implicit entry is among the implicit ones, so what is in front of it is too
  rw [List.idxOf_append_of_mem hs] at hlt
  have hinside := Nat.lt_trans hlt (List.idxOf_lt_length_of_mem hs)
  by_contra hr
  rw [List.idxOf_append_of_notMem hr] at hinside
  omega

/-- Every instruction gives exact accounts. What it reads is what it reads implicitly, the register
operands with read access, the registers of every address, and the write masks; what it writes is
what it writes implicitly and the register operands with write access. -/
theorem Instruction.registers_accounted (i : Instruction) :
    Account i.implicitReads (i.operands.flatMap Operand.registersRead)
        (fun r => ∃ o ∈ i.operands, o.Reads r) i.registersRead ∧
      Account i.implicitWrites (i.operands.flatMap Operand.registersWritten)
        (fun r => ∃ o ∈ i.operands, o.Writes r) i.registersWritten := by
  constructor
  · refine account_distinct fun r hr => ?_
    rw [List.mem_flatMap]
    exact exists_congr fun o => and_congr_right fun _ => o.mem_registersRead hr
  · refine account_distinct fun r _ => ?_
    rw [List.mem_flatMap]
    exact exists_congr fun o => and_congr_right fun _ => o.mem_registersWritten

end MachineCode
