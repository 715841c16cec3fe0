import MachineCode.Proofs.Sequential
import MachineCode.Proofs.X86.Candidates

/-!
# Choosing a row settles

Behind the opcode the decoder looks at the next byte before it knows whether the
byte belongs to the instruction. Rows that share an opcode agree on that, so two
cases are left. If no row has a ModRM byte, the byte is ignored: the choice is
the same for every next byte and for none. If all of them have one, the byte is
taken whichever row it selects; where it is missing no row is chosen, and the
refusal is a shortage unless no byte could have helped.
-/

namespace MachineCode.X86

open Bytes Read

variable {h : Head} {opcode : Opcode} {row : Row} {rows : List Row}

theorem selectsOnModrm_of_not_needsModrm (hr : row.needsModrm = false) :
    row.pattern.selectsOnModrm = false := by
  rw [Row.needsModrm, Bool.or_eq_false_iff] at hr
  exact hr.1

theorem needsModrm_of_selectsOnModrm (hr : row.pattern.selectsOnModrm = true) :
    row.needsModrm = true := by
  rw [Row.needsModrm, hr, Bool.true_or]

/-- The ModRM byte has no say where it does not select. -/
theorem Pattern.accepts_of_not_selectsOnModrm {p : Pattern} (hp : p.selectsOnModrm = false)
    (h : Head) (next : Option UInt8) : p.accepts h next = p.acceptsHead h := by
  rw [accepts, hp, Bool.not_false, Bool.true_or, Bool.and_true]

theorem Pattern.acceptsHead_of_accepts {p : Pattern} {next : Option UInt8}
    (hp : p.accepts h next = true) : p.acceptsHead h = true :=
  (Bool.and_eq_true_iff.mp hp).1

/-- A row that is chosen is one of the rows, and accepts. -/
theorem of_chooseRow {next : Option UInt8} (hc : chooseRow rows h next = .ok row) :
    row ∈ rows ∧ row.pattern.accepts h next = true := by
  simp only [chooseRow] at hc
  split at hc
  · next r hbest =>
      cases hc
      obtain ⟨hmem, haccepts⟩ := List.mem_filter.mp (mostSpecific_mem hbest)
      exact ⟨hmem, (Bool.and_eq_true_iff.mp haccepts).2⟩
  · split at hc
    · cases hc
    · split at hc
      · cases hc
      · split at hc <;> cases hc

theorem chooseRow_mem {next : Option UInt8} (hc : chooseRow rows h next = .ok row) :
    row ∈ rows :=
  (of_chooseRow hc).1

/-- With a byte to look at, the choice fails only if no row is known. -/
theorem chooseRow_some_error {next : UInt8} {fault : Fault}
    (hc : chooseRow rows h (some next) = .error fault) : fault = .unknownOpcode := by
  simp only [chooseRow] at hc
  split at hc
  · cases hc
  · rw [if_pos (Option.isSome_some)] at hc
    cases hc
    rfl

/-- Without ModRM bytes in sight, the next byte is ignored. -/
theorem chooseRow_of_not_needsModrm (hrows : ∀ r ∈ rows, r.needsModrm = false)
    (next : Option UInt8) : chooseRow rows h next = chooseRow rows h none := by
  have hfilter : ∀ next : Option UInt8,
      rows.filter (fun r => (next.isSome || !r.needsModrm) && r.pattern.accepts h next) =
        rows.filter fun r => r.pattern.acceptsHead h := by
    intro next
    refine List.filter_congr fun r hr => ?_
    rw [hrows r hr, Bool.not_false, Bool.or_true, Bool.true_and,
      Pattern.accepts_of_not_selectsOnModrm (selectsOnModrm_of_not_needsModrm (hrows r hr))]
  have hoperand : (rows.any fun r =>
      r.needsModrm && !r.pattern.selectsOnModrm && r.pattern.accepts h none) = false := by
    refine List.any_eq_false.mpr fun r hr => ?_
    rw [hrows r hr]
    exact Bool.false_ne_true
  have hselector : (rows.any fun r => r.pattern.selectsOnModrm) = false := by
    refine List.any_eq_false.mpr fun r hr => ?_
    rw [selectsOnModrm_of_not_needsModrm (hrows r hr)]
    exact Bool.false_ne_true
  simp only [chooseRow, hfilter, hoperand, hselector]
  split
  · rfl
  · cases next <;> rfl

/-- No row with a ModRM byte is chosen while that byte is missing. -/
theorem filter_none_of_needsModrm (hrows : ∀ r ∈ rows, r.needsModrm = true) :
    rows.filter (fun r => ((none : Option UInt8).isSome || !r.needsModrm) &&
      r.pattern.accepts h none) = [] := by
  refine List.filter_eq_nil_iff.mpr fun r hr => ?_
  rw [hrows r hr]
  exact Bool.false_ne_true

theorem chooseRow_none_of_needsModrm (hrows : ∀ r ∈ rows, r.needsModrm = true) :
    ∃ fault, chooseRow rows h none = .error fault ∧
      (fault.isShortage = true ∨ fault = .unknownOpcode) := by
  simp only [chooseRow, filter_none_of_needsModrm hrows, mostSpecific_nil]
  simp only [Option.isSome_none, Bool.false_eq_true, if_false]
  split
  · exact ⟨_, rfl, .inl rfl⟩
  · split
    · exact ⟨_, rfl, .inl rfl⟩
    · exact ⟨_, rfl, .inr rfl⟩

/-- If the row is unknown while its ModRM byte is missing, no byte makes it known. -/
theorem chooseRow_some_of_none_unknown (hrows : ∀ r ∈ rows, r.needsModrm = true)
    (hc : chooseRow rows h none = .error .unknownOpcode) (next : UInt8) :
    chooseRow rows h (some next) = .error .unknownOpcode := by
  simp only [chooseRow, filter_none_of_needsModrm hrows, mostSpecific_nil] at hc
  simp only [Option.isSome_none, Bool.false_eq_true, if_false] at hc
  split at hc
  · cases hc
  · next hoperand =>
      split at hc
      · cases hc
      · next hselector =>
          have hnone : rows.filter (fun r => ((some next).isSome || !r.needsModrm) &&
              r.pattern.accepts h (some next)) = [] := by
            refine List.filter_eq_nil_iff.mpr fun r hr => ?_
            have hsel : r.pattern.selectsOnModrm = false :=
              Bool.eq_false_iff.mpr fun hs => hselector (List.any_eq_true.mpr ⟨r, hr, hs⟩)
            have hrej : r.pattern.acceptsHead h = false := by
              refine Bool.eq_false_iff.mpr fun ha => hoperand (List.any_eq_true.mpr ⟨r, hr, ?_⟩)
              rw [hrows r hr, hsel, Pattern.accepts_of_not_selectsOnModrm hsel, ha]
              rfl
            rw [Pattern.accepts_of_not_selectsOnModrm hsel, hrej, Bool.and_false]
            exact Bool.false_ne_true
          simp only [chooseRow, hnone, mostSpecific_nil]
          exact if_pos Option.isSome_some

theorem readModrm_sequential (row : Row) : (readModrm row).Sequential := by
  rw [readModrm]
  split
  · exact Sequential.byte.inOperand.map
  · exact .pure none

theorem readRow_sequential (h : Head) (opcode : Opcode) (row : Row) :
    (readRow h opcode row).Sequential := by
  refine (readModrm_sequential row).bind fun modrm => ?_
  split
  · exact .fail _
  · exact .pure _

theorem readRow_faults (h : Head) (opcode : Opcode) (row : Row) :
    (readRow h opcode row).Faults (·.isUnderrun = false) := by
  refine Faults.bind ?_ fun modrm => ?_
  · rw [readModrm]
    split
    · rw [map_eq_pure_bind]
      exact (Faults.inOperand Read.byte).bind fun _ => .pure _
    · exact .pure none
  · split
    · exact .fail rfl
    · exact .pure _

/-- A row with a ModRM byte takes it. -/
theorem readRow_takes {u : Nat} {taken : List UInt8} {f : Frame} (hrow : row.needsModrm = true)
    (ht : (readRow h opcode row).Takes u taken f) : 1 ≤ taken.length := by
  cases taken with
  | cons b bs => exact Nat.le_add_left 1 bs.length
  | nil =>
      have hrun := ht.run 0
      rw [readRow, readModrm, if_pos hrow] at hrun
      cases hrun

theorem selectRow_error {t : Tape} {fault : Fault}
    (hc : chooseRow (candidates h.encoding opcode.map opcode.byte) h t.rest.head? =
      .error fault) : selectRow h opcode t = Read.fail fault t := by
  rw [selectRow, bind_ok (show Read.peek? t = .ok t.rest.head? t from rfl), hc]

theorem selectRow_ok {t : Tape}
    (hc : chooseRow (candidates h.encoding opcode.map opcode.byte) h t.rest.head? = .ok row) :
    selectRow h opcode t = readRow h opcode row t := by
  rw [selectRow, bind_ok (show Read.peek? t = .ok t.rest.head? t from rfl), hc]

/-- Rows of an opcode either all have a ModRM byte or all lack one. -/
theorem needsModrm_candidates (encoding : Encoding) (map : OpcodeMap) (opcode : UInt8) :
    (∀ r ∈ candidates encoding map opcode, r.needsModrm = true) ∨
      ∀ r ∈ candidates encoding map opcode, r.needsModrm = false := by
  by_cases hall : ∀ r ∈ candidates encoding map opcode, r.needsModrm = true
  · exact .inl hall
  · refine .inr fun r hr => Bool.eq_false_iff.mpr fun hneeds => hall fun r' hr' => ?_
    rw [needsModrm_eq_of_mem_candidates hr' hr]
    exact hneeds

/-- With a byte behind the opcode, the choice never starves before the operands. -/
theorem selectRow_cons_faults {s u : Nat} {c : UInt8} {bs : List UInt8} {e : DecodeError}
    {t : Tape} (hrun : selectRow h opcode ⟨s, u, c :: bs⟩ = .error e t) :
    e.fault.isUnderrun = false := by
  cases hc : chooseRow (candidates h.encoding opcode.map opcode.byte) h (some c) with
  | error fault =>
      rw [selectRow_error (t := ⟨s, u, c :: bs⟩) hc] at hrun
      cases hrun
      rw [chooseRow_some_error hc]
      rfl
  | ok row =>
      rw [selectRow_ok (t := ⟨s, u, c :: bs⟩) hc] at hrun
      exact readRow_faults h opcode row _ _ _ hrun

theorem selectRow_sequential (h : Head) (opcode : Opcode) : (selectRow h opcode).Sequential := by
  intro u bs
  rcases needsModrm_candidates h.encoding opcode.map opcode.byte with hall | hnone
  · cases bs with
    | nil =>
        obtain ⟨fault, hc, hfault⟩ := chooseRow_none_of_needsModrm (h := h) hall
        refine .inr ⟨fault, fun start more hmore => ?_⟩
        rw [List.nil_append]
        cases more with
        | nil => exact ⟨_, _, selectRow_error hc, rfl⟩
        | cons c more =>
            rcases hfault with hshort | rfl
            · cases hmore hshort
            · -- refused without the byte, refused with any
              exact ⟨_, _, selectRow_error (chooseRow_some_of_none_unknown hall hc c), rfl⟩
    | cons c bs =>
        cases hc : chooseRow (candidates h.encoding opcode.map opcode.byte) h (some c) with
        | error fault =>
            exact .of_agreeAfter [c] (fun _ _ => selectRow_error hc)
              (Sequential.fail fault u (c :: bs)) (fun taken _ f _ ht => by cases ht.run 0)
        | ok row =>
            exact .of_agreeAfter [c] (fun _ _ => selectRow_ok hc)
              (readRow_sequential h opcode row u (c :: bs))
              (fun taken _ f _ ht => readRow_takes (hall row (chooseRow_mem hc)) ht)
  · cases hc : chooseRow (candidates h.encoding opcode.map opcode.byte) h none with
    | error fault =>
        exact .of_agreeAfter []
          (fun _ _ => selectRow_error ((chooseRow_of_not_needsModrm hnone _).trans hc))
          (Sequential.fail fault u bs) (fun _ _ _ _ _ => Nat.zero_le _)
    | ok row =>
        exact .of_agreeAfter []
          (fun _ _ => selectRow_ok ((chooseRow_of_not_needsModrm hnone _).trans hc))
          (readRow_sequential h opcode row u bs) (fun _ _ _ _ _ => Nat.zero_le _)

theorem selectRow_operandsLast (h : Head) (opcode : Opcode) (u : Nat) (bs : List UInt8) :
    (selectRow h opcode).OperandsLast u bs := by
  intro s e t hrun htrunc s' more e' t' hrun'
  cases bs with
  | cons c bs => exact selectRow_cons_faults hrun'
  | nil =>
      cases more with
      | cons c more => exact selectRow_cons_faults hrun'
      | nil =>
          cases hc : chooseRow (candidates h.encoding opcode.map opcode.byte) h none with
          | ok row =>
              rw [List.append_nil, selectRow_ok (t := ⟨s', u, []⟩) hc] at hrun'
              exact readRow_faults h opcode row _ _ _ hrun'
          | error fault =>
              rw [selectRow_error (t := ⟨s, u, []⟩) hc] at hrun
              rw [List.append_nil, selectRow_error (t := ⟨s', u, []⟩) hc] at hrun'
              cases hrun
              cases hrun'
              exact Fault.not_isUnderrun_of_isTruncated htrunc

end MachineCode.X86
