import MachineCode.Proofs.Specificity
import MachineCode.Proofs.X86.Selection

/-!
# Which x86 row an opcode means

Rows of one opcode overlap in many ways: a mandatory prefix, the fields of the
ModRM byte, W, the vector length, the mode and the B bit each take part in some
rows and not in others. Still no head and next byte have two meanings. Any two
rows of one encoding, map and opcode that are equally specific exclude each
other: both fix some part of the selector, and fix it differently.

So the choice is the one most specific row of a plain scan, and neither the index
nor the order of the table has a say in it.
-/

namespace MachineCode.X86

open Bytes Read

variable {h : Head} {opcode : Opcode} {next : UInt8} {r s : Row}

section Clash

variable {β : Type} [DecidableEq β] {o o' : Option β} {x : β}

/-- Whether two requirements ask for different values. -/
def clash (o o' : Option β) : Bool :=
  match o, o' with
  | some x, some y => x != y
  | _, _ => false

theorem clash_eq_false (ho : o.all (· == x) = true) (ho' : o'.all (· == x) = true) :
    clash o o' = false := by
  cases o with
  | none => rfl
  | some y =>
      cases o' with
      | none => rfl
      | some z =>
          rw [Option.all_some, beq_iff_eq] at ho ho'
          rw [clash, ho, ho', bne_self_eq_false]

end Clash

/-- Whether two forms have no ModRM byte in common. -/
def ModrmForm.excludes : ModrmForm → ModrmForm → Bool
  | .memory, .register | .register, .memory => true
  | _, _ => false

/-- Whether two scopes have no mode in common. -/
def ModeScope.excludes : ModeScope → ModeScope → Bool
  | .only64, .not64 | .not64, .only64 => true
  | _, _ => false

namespace Pattern

variable {p q : Pattern}

/-- Whether two patterns of one encoding and map visibly have no selector in common. -/
def excludes (p q : Pattern) : Bool :=
  !p.plusReg && !q.plusReg && p.opcode != q.opcode
    || clash p.mandatory q.mandatory
    || clash p.reg q.reg
    || clash p.rm q.rm
    || p.form.excludes q.form
    || clash p.w q.w
    || clash p.length q.length
    || p.scope.excludes q.scope

/-- What a pattern requires of the ModRM byte holds of every byte it accepts. -/
theorem acceptsModrm_of_accepts (hp : p.accepts h (some next) = true) :
    p.acceptsModrm next = true := by
  rw [accepts, Bool.and_eq_true, Bool.or_eq_true, Bool.not_eq_true', Option.any_some] at hp
  rcases hp.2 with hsel | hmodrm
  · rw [selectsOnModrm, Bool.or_eq_false_iff, Bool.or_eq_false_iff] at hsel
    obtain ⟨⟨hreg, hrm⟩, hform⟩ := hsel
    rw [acceptsModrm, Option.not_isSome_iff_eq_none.mp (Bool.eq_false_iff.mp hreg),
      Option.not_isSome_iff_eq_none.mp (Bool.eq_false_iff.mp hrm),
      Decidable.not_not.mp (of_decide_eq_false hform)]
    rfl
  · exact hmodrm

theorem form_excludes (hp : p.acceptsModrm next = true) (hq : q.acceptsModrm next = true) :
    p.form.excludes q.form = false := by
  refine Bool.eq_false_iff.mpr fun hex => ?_
  rw [acceptsModrm, Bool.and_eq_true] at hp hq
  have hboth := And.intro hp.2 hq.2
  match hf : p.form, hf' : q.form, hex with
  | .memory, .register, _ | .register, .memory, _ => simp [hf, hf'] at hboth

theorem scope_excludes (hp : p.acceptsHead h = true) (hq : q.acceptsHead h = true) :
    p.scope.excludes q.scope = false := by
  refine Bool.eq_false_iff.mpr fun hex => ?_
  simp only [acceptsHead, Bool.and_eq_true] at hp hq
  have hboth := And.intro hp.1.2 hq.1.2
  match hf : p.scope, hf' : q.scope, hex with
  | .only64, .not64, _ | .not64, .only64, _ => simp [hf, hf'] at hboth

theorem opcode_excludes {byte : UInt8} (hp : p.coversOpcode byte = true)
    (hq : q.coversOpcode byte = true) :
    (!p.plusReg && !q.plusReg && p.opcode != q.opcode) = false := by
  cases hpr : p.plusReg with
  | true => rfl
  | false =>
      cases hqr : q.plusReg with
      | true => rfl
      | false =>
          rw [coversOpcode, hpr] at hp
          rw [coversOpcode, hqr] at hq
          rw [← eq_of_beq hp, ← eq_of_beq hq, bne_self_eq_false, Bool.and_false]

end Pattern

/-- Whether a row belongs to an encoding and an opcode, and accepts the head and the byte behind
the opcode. -/
def Head.selects (h : Head) (opcode : Opcode) (next : UInt8) (r : Row) : Bool :=
  decide (r.pattern.encoding = h.encoding) && decide (r.pattern.map = opcode.map)
    && r.pattern.coversOpcode opcode.byte && r.pattern.accepts h (some next)

theorem Head.selects_iff : h.selects opcode next r = true ↔
    r.pattern.encoding = h.encoding ∧ r.pattern.map = opcode.map ∧
      r.pattern.coversOpcode opcode.byte = true ∧ r.pattern.accepts h (some next) = true := by
  simp only [selects, Bool.and_eq_true, decide_eq_true_eq, and_assoc]

theorem Pattern.excludes_eq_false (hr : h.selects opcode next r = true)
    (hs : h.selects opcode next s = true) : r.pattern.excludes s.pattern = false := by
  obtain ⟨-, -, hrcovers, hraccepts⟩ := Head.selects_iff.mp hr
  obtain ⟨-, -, hscovers, hsaccepts⟩ := Head.selects_iff.mp hs
  have hrmodrm := acceptsModrm_of_accepts hraccepts
  have hsmodrm := acceptsModrm_of_accepts hsaccepts
  have hrhead := (Bool.and_eq_true_iff.mp hraccepts).1
  have hshead := (Bool.and_eq_true_iff.mp hsaccepts).1
  rw [excludes, opcode_excludes hrcovers hscovers, form_excludes hrmodrm hsmodrm,
    scope_excludes hrhead hshead]
  simp only [acceptsHead, acceptsModrm, Bool.and_eq_true] at hrhead hshead hrmodrm hsmodrm
  rw [clash_eq_false hrhead.1.1.1.1 hshead.1.1.1.1, clash_eq_false hrhead.1.1.1.2 hshead.1.1.1.2,
    clash_eq_false hrhead.1.1.2 hshead.1.1.2, clash_eq_false hrmodrm.1.1 hsmodrm.1.1,
    clash_eq_false hrmodrm.1.2 hsmodrm.1.2]
  rfl

/-- The part of a pattern's selector that every pattern fixes: the encoding, the map and the top
five opcode bits. -/
def Pattern.key (p : Pattern) : Nat :=
  32 * shelf p.encoding p.map + p.opcode.toNat / 8

theorem Pattern.key_eq (hr : h.selects opcode next r = true) :
    r.pattern.key = 32 * shelf h.encoding opcode.map + opcode.byte.toNat / 8 := by
  obtain ⟨henc, hmap, hcovers, -⟩ := Head.selects_iff.mp hr
  rw [key, henc, hmap]
  rw [coversOpcode] at hcovers
  split at hcovers
  · have hbyte := congrArg UInt8.toNat (eq_of_beq hcovers)
    rw [and_f8, and_f8] at hbyte
    omega
  · rw [eq_of_beq hcovers]

theorem excludes_table :
    allPairsByKey (fun r : Row => r.pattern.key)
      (fun r s => r.pattern.excludes s.pattern ||
        r.pattern.specificity != s.pattern.specificity) 10 table = true := by
  decide +kernel

/-- No head and next byte have two rows that are equally specific. -/
theorem tieFree_table (h : Head) (opcode : Opcode) (next : UInt8) :
    TieFree (fun r : Row => r.pattern.specificity) (h.selects opcode next) table := by
  refine tieFree_of_allPairsByKey excludes_table ?_ fun r s => Pattern.excludes_eq_false
  intro r _ s _ hr hs
  rw [Pattern.key_eq hr, Pattern.key_eq hs]

/-- The index hides no row that is selected. -/
theorem chooseRow_some (h : Head) (opcode : Opcode) (next : UInt8) :
    chooseRow (candidates h.encoding opcode.map opcode.byte) h (some next) =
      match mostSpecific (fun r : Row => r.pattern.specificity)
        (table.filter (h.selects opcode next)) with
      | some r => .ok r
      | none => .error .unknownOpcode := by
  have hfilter : (candidates h.encoding opcode.map opcode.byte).filter
      (fun r => ((some next).isSome || !r.needsModrm) && r.pattern.accepts h (some next)) =
        table.filter (h.selects opcode next) := by
    rw [candidates_eq, shelfRows, List.filter_filter, List.filter_filter]
    refine List.filter_congr fun r _ => ?_
    rw [Bool.eq_iff_iff, Head.selects_iff]
    simp only [Option.isSome_some, Bool.true_or, Bool.true_and, Bool.and_eq_true, beq_iff_eq]
    constructor
    · rintro ⟨⟨haccepts, hcovers⟩, hshelf⟩
      obtain ⟨henc, hmap⟩ := shelf_inj hshelf
      exact ⟨henc, hmap, hcovers, haccepts⟩
    · rintro ⟨henc, hmap, hcovers, haccepts⟩
      exact ⟨⟨haccepts, hcovers⟩, by rw [henc, hmap]⟩
  simp only [chooseRow, hfilter]
  cases mostSpecific (fun r : Row => r.pattern.specificity)
    (table.filter (h.selects opcode next)) with
  | some r => rfl
  | none => exact if_pos Option.isSome_some

/-- With a byte behind the opcode, the row that is chosen is the one row of the table that has the
encoding, the map and the opcode, accepts the head and the byte, and is more specific than every
other such row; the opcode is unknown if there is no such row. That does not depend on the order
of the table. -/
theorem chooseRow_only_most_specific (h : Head) (opcode : Opcode) (next : UInt8) :
    let choice := chooseRow (candidates h.encoding opcode.map opcode.byte) h (some next)
    let IsMeant := IsOnlyMostSpecific (fun r : Row => r.pattern.specificity)
      (h.selects opcode next) table
    (∀ r, choice = .ok r ↔ IsMeant r) ∧
      (choice = .error .unknownOpcode ↔ ¬∃ r, IsMeant r) ∧
      (∀ rows, table.Perm rows →
        mostSpecific (fun r : Row => r.pattern.specificity)
          (rows.filter (h.selects opcode next)) = choice.toOption) ∧
      ∀ start used more, selectRow h opcode ⟨start, used, next :: more⟩ =
        match choice with
        | .ok r => readRow h opcode r ⟨start, used, next :: more⟩
        | .error fault => Read.fail fault ⟨start, used, next :: more⟩ := by
  have hfree := tieFree_table h opcode next
  intro choice IsMeant
  have hchoice : choice = _ := chooseRow_some h opcode next
  refine ⟨fun r => ?_, ?_, fun rows hperm => ?_, fun start used more => ?_⟩
  · refine Iff.trans ?_ (mostSpecific_filter_eq_some_iff hfree)
    rw [hchoice]
    cases mostSpecific _ (table.filter (h.selects opcode next)) with
    | some s => rw [Except.ok.injEq, Option.some.injEq]
    | none => exact iff_of_false nofun nofun
  · refine Iff.trans ?_ (mostSpecific_filter_eq_none_iff hfree)
    rw [hchoice]
    cases mostSpecific _ (table.filter (h.selects opcode next)) with
    | some s => exact iff_of_false nofun nofun
    | none => exact iff_of_true rfl rfl
  · rw [mostSpecific_filter_perm hfree hperm, hchoice]
    cases mostSpecific _ (table.filter (h.selects opcode next)) <;> rfl
  · cases hc : choice with
    | ok r => exact selectRow_ok (t := ⟨start, used, next :: more⟩) hc
    | error fault => exact selectRow_error (t := ⟨start, used, next :: more⟩) hc

/-- The table read backwards gives opcode `90`, which is `nop`, `pause` or an exchange, the same
row. -/
theorem chooseRow_nop_reversed :
    let h : Head := { mode := .w64 }
    let opcode : Opcode := { map := .primary, byte := 0x90, bytes := [0x90] }
    table.Perm table.reverse ∧
      mostSpecific (fun r : Row => r.pattern.specificity)
          (table.reverse.filter (h.selects opcode 0)) =
        (chooseRow (candidates h.encoding opcode.map opcode.byte) h (some 0)).toOption := by
  intro h opcode
  have hperm : table.Perm table.reverse := (List.reverse_perm table).symm
  obtain ⟨-, -, hrows, -⟩ := chooseRow_only_most_specific h opcode 0
  exact ⟨hperm, hrows _ hperm⟩

end MachineCode.X86
