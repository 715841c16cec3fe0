import MachineCode.Proofs.Truncation
import MachineCode.Proofs.X86.BodyBytes
import MachineCode.Proofs.X86.PrefixSummary

/-!
# What a failure reports

A shortage asks for at most eight bytes, the widest number that an encoding holds,
and for more than it found; what it found are bytes that were left. This goes
reader by reader: each asks for a width that its place in the encoding fixes, and
no reader gives bytes back, so what is left for a later one was left before.

Too many prefixes are reported in two places, and both count the run of prefix
bytes that the instruction begins with: the scan, at the fifteenth byte of the
run, and the body, if the whole encoding came out too long.
-/

namespace MachineCode

open Bytes (Tape Read)

namespace Fault

/-- Whether the numbers of a fault are in their bounds. -/
def IsBounded : Fault → Prop
  | .underrun needed available | .truncatedOperand needed available =>
    available < needed ∧ needed ≤ 8
  | .excessivePrefixes count => count ≤ 15
  | .unknownOpcode => True

/-- Whether a fault is true where so many bytes are left. A number of prefixes never is: it depends on
which bytes these are. -/
def IsTrueOf (left : Nat) : Fault → Prop
  | .underrun needed available | .truncatedOperand needed available =>
    available < needed ∧ needed ≤ 8 ∧ available ≤ left
  | .excessivePrefixes _ => False
  | .unknownOpcode => True

variable {f : Fault} {left : Nat}

theorem IsTrueOf.inOperand (h : f.IsTrueOf left) : f.inOperand.IsTrueOf left := by
  cases f <;> exact h

theorem IsTrueOf.mono {more : Nat} (h : f.IsTrueOf left) (hle : left ≤ more) : f.IsTrueOf more := by
  cases f with
  | underrun | truncatedOperand =>
      obtain ⟨hlt, hneeded, hleft⟩ := h
      exact ⟨hlt, hneeded, Nat.le_trans hleft hle⟩
  | excessivePrefixes => exact h
  | unknownOpcode => trivial

theorem IsTrueOf.isBounded (h : f.IsTrueOf left) : f.IsBounded := by
  cases f with
  | underrun | truncatedOperand => exact ⟨h.1, h.2.1⟩
  | excessivePrefixes => exact h.elim
  | unknownOpcode => trivial

end Fault

namespace Bytes

theorem Tape.Took.length_le {t t' : Tape} {taken : List UInt8} (h : t.Took t' taken) :
    t'.rest.length ≤ t.rest.length := by
  rw [h.rest_eq, List.length_append]
  exact Nat.le_add_left _ _

namespace Read

variable {α β : Type} {m : Read α} {f : α → Read β}

/-- The faults of a reader are true where it began, and it leaves no more than it found. -/
structure Truthful (m : Read α) : Prop where
  fault : ∀ t e t', m t = .error e t' → e.fault.IsTrueOf t.rest.length
  length_le : ∀ t a t', m t = .ok a t' → t'.rest.length ≤ t.rest.length

namespace Truthful

theorem pure (a : α) : Truthful (pure a : Read α) where
  fault t e t' h := by cases h
  length_le t b t' h := by
    cases h
    exact Nat.le_refl _

/-- A fault that is true where nothing is left is true everywhere. -/
theorem fail {fault : Fault} (h : fault.IsTrueOf 0) : Truthful (Read.fail fault : Read α) where
  fault t e t' hrun := by
    cases hrun
    exact h.mono (Nat.zero_le _)
  length_le t a t' hrun := by cases hrun

theorem bind (hm : m.Truthful) (hf : ∀ a, (f a).Truthful) : (m >>= f).Truthful where
  fault t e t' h := by
    rcases of_bind_error h with hrun | ⟨a, t₁, hok, hrun⟩
    · exact hm.fault t e t' hrun
    · exact ((hf a).fault t₁ e t' hrun).mono (hm.length_le t a t₁ hok)
  length_le t b t' h := by
    obtain ⟨a, t₁, hok, hrun⟩ := of_bind_ok h
    exact Nat.le_trans ((hf a).length_le t₁ b t' hrun) (hm.length_le t a t₁ hok)

theorem map (hm : m.Truthful) (g : α → β) : (g <$> m).Truthful := by
  rw [map_eq_pure_bind]
  exact hm.bind fun _ => .pure _

theorem inOperand (hm : m.Truthful) : m.inOperand.Truthful where
  fault t e t' h := by
    cases hrun : m t with
    | ok a t₁ =>
        rw [inOperand_ok hrun] at h
        cases h
    | error e₁ t₁ =>
        rw [inOperand_error hrun] at h
        cases h
        exact (hm.fault _ _ _ hrun).inOperand
  length_le t a t' h := hm.length_le t a t' (of_inOperand_ok h)

theorem used : Read.used.Truthful where
  fault t e t' h := by cases h
  length_le t a t' h := by
    cases h
    exact Nat.le_refl _

theorem peek? : Read.peek?.Truthful where
  fault t e t' h := by cases h
  length_le t a t' h := by
    cases h
    exact Nat.le_refl _

theorem byte : Read.byte.Truthful where
  fault t e t' h := by
    rw [Read.byte] at h
    split at h
    · cases h
      exact ⟨Nat.one_pos, by decide, Nat.zero_le _⟩
    · cases h
  length_le t b t' h := (byte_took h).length_le

theorem bytes {n : Nat} (hn : n ≤ 8) : (Read.bytes n).Truthful where
  fault t e t' h := by
    by_cases hlen : t.rest.length < n
    · rw [bytes_short hlen] at h
      cases h
      exact ⟨hlen, hn, Nat.le_refl _⟩
    · rw [Read.bytes, if_pos (List.length_take_of_le (Nat.le_of_not_lt hlen))] at h
      cases h
  length_le t taken t' h := (bytes_took h).1.length_le

theorem unsigned {n : Nat} (hn : n ≤ 8) : (Read.unsigned n).Truthful :=
  (bytes hn).map _

theorem signed {n : Nat} (hn : n ≤ 8) : (Read.signed n).Truthful :=
  (bytes hn).map _

end Truthful

end Read

end Bytes

open Bytes.Read

namespace X86

variable {mode : Width} {h : Head} {f : Frame} {address : UInt64} {t t' : Tape}
  {err : DecodeError}

theorem payloadLength_le (escape : Escape) : escape.payloadLength ≤ 8 := by
  cases escape <;> decide

theorem Scan.ReadsPayload.fault_isTrueOf {s : Scan} {escape : Escape} {fault : Fault}
    (hs : s.ReadsPayload h escape t) (hfault : s.fault = some fault) :
    fault.IsTrueOf t.rest.length := by
  by_cases hlen : t.rest.length < escape.payloadLength
  · rw [hs.short hlen] at hfault
    cases hfault
    exact ⟨hlen, payloadLength_le escape, Nat.le_refl _⟩
  · rw [hs.whole (Nat.le_of_not_lt hlen)] at hfault
    rw [readPayload_fault hfault]
    trivial

/-- A scan that does not find too many prefixes tells the truth. -/
theorem Scan.Summarizes.fault_isTrueOf {s : Scan} {run behind : List UInt8} {fault : Fault}
    (hs : s.Summarizes mode t run behind) (hlen : run.length < 15)
    (hfault : s.fault = some fault) : fault.IsTrueOf t.rest.length := by
  cases hs.endsBefore hlen with
  | underrun hend =>
      rw [hend] at hfault
      cases hfault
      exact ⟨Nat.one_pos, by decide, Nat.zero_le _⟩
  | legacy b after hend =>
      rw [hend] at hfault
      cases hfault
  | refused b after hend =>
      rw [hend] at hfault
      cases hfault
      trivial
  | escaped escape after hend =>
      refine (hend.fault_isTrueOf hfault).mono ?_
      show (t.rest.drop (run.length + 1)).length ≤ t.rest.length
      rw [List.length_drop]
      exact Nat.sub_le _ _

/-- A head is refused for its fifteenth prefix byte, or for what the fault says. -/
theorem readHead_fault (hrun : readHead mode t = .error err t') :
    err.fault.IsTrueOf t.rest.length ∨
      15 ≤ (prefixRun mode t.rest).length ∧ err.fault = .excessivePrefixes 15 := by
  have hfault := scan_of_readHead_error hrun
  have hs := summarizes_prefixRun mode t
  by_cases hlen : 15 ≤ (prefixRun mode t.rest).length
  · rw [hs.excessive hlen] at hfault
    exact .inr ⟨hlen, (Option.some.inj hfault).symm⟩
  · exact .inl (hs.fault_isTrueOf (Nat.lt_of_not_le hlen) hfault)

theorem readOpcode_truthful (h : Head) : (readOpcode h).Truthful := by
  refine .bind .byte fun b => ?_
  split
  · exact .pure _
  · split
    · exact .pure _
    · refine .bind .byte fun c => ?_
      split
      · exact .bind .byte fun d => .pure _
      · split
        · exact .bind .byte fun d => .pure _
        · exact .pure _

theorem chooseRow_isTrueOf {rows : List Row} {next : Option UInt8} {fault : Fault}
    (hchoose : chooseRow rows h next = .error fault) : fault.IsTrueOf 0 := by
  simp only [chooseRow] at hchoose
  split at hchoose
  · cases hchoose
  · split at hchoose
    · cases hchoose
      trivial
    · split at hchoose
      · cases hchoose
        exact ⟨Nat.one_pos, by decide, Nat.le_refl 0⟩
      · split at hchoose
        · cases hchoose
          exact ⟨Nat.one_pos, by decide, Nat.le_refl 0⟩
        · cases hchoose
          trivial

theorem readRow_truthful (h : Head) (opcode : Opcode) (row : Row) :
    (readRow h opcode row).Truthful := by
  refine .bind ?_ fun modrm => ?_
  · rw [readModrm]
    split
    · exact Truthful.byte.inOperand.map _
    · exact .pure none
  · split
    · exact .fail trivial
    · exact .pure _

theorem readSelector_truthful (h : Head) : (readSelector h).Truthful := by
  refine (readOpcode_truthful h).bind fun opcode => Truthful.peek?.bind fun next => ?_
  split
  · next hchoose => exact .fail (chooseRow_isTrueOf hchoose)
  · exact readRow_truthful h opcode _

theorem readFrame_fault (hrun : readFrame mode t = .error err t') :
    err.fault.IsTrueOf t.rest.length ∨
      15 ≤ (prefixRun mode t.rest).length ∧ err.fault = .excessivePrefixes 15 := by
  rcases of_bind_error hrun with hhead | ⟨h, t₁, hhead, hselector⟩
  · exact readHead_fault hhead
  · obtain ⟨prefixes, escape, htook, -⟩ := readHeadFrom_took mode {} hhead
    exact .inl (((readSelector_truthful h).fault t₁ err t' hselector).mono htook.length_le)

theorem readDisp_truthful {size : Nat} (h : size ≤ 8) : (Address.readDisp size).Truthful := by
  rw [Address.readDisp]
  split
  · exact .pure 0
  · exact .signed h

theorem dispSize_le (mod : UInt8) : Address.dispSize mod ≤ 8 := by
  rw [Address.dispSize]
  split
  · decide
  · split <;> decide

theorem read16_truthful (segment : MachineCode.Register) (mod rm : UInt8) :
    (Address.read16 segment mod rm).Truthful := by
  refine .bind (readDisp_truthful ?_) fun disp => .pure _
  split
  · decide
  · split
    · decide
    · split <;> decide

theorem readSib_truthful (f : Frame) (segment : MachineCode.Register) (mod : UInt8) :
    (Address.readSib f segment mod).Truthful := by
  refine .bind .byte fun sib => (readDisp_truthful ?_).bind fun disp => .pure _
  split
  · decide
  · exact dispSize_le mod

theorem readPlain_truthful (f : Frame) (segment : MachineCode.Register) (mod rm : UInt8) :
    (Address.readPlain f segment mod rm).Truthful := by
  refine .bind (readDisp_truthful ?_) fun disp => .pure _
  split
  · decide
  · exact dispSize_le mod

theorem readAddress_truthful (f : Frame) : (readAddress f).Truthful := by
  rw [readAddress]
  split
  · exact .pure none
  · rw [Address.read?.eq_def]
    split
    · exact .pure none
    · simp only []
      split
      · exact .pure none
      · split
        · exact (read16_truthful _ _ _).map _
        · split
          · exact (readSib_truthful f _ _).map _
          · exact (readPlain_truthful f _ _ _).map _

theorem memoryOperand_fault {a : Address} {size : UInt16} {access : Access} {fault : Fault}
    (h : memoryOperand f a size access = .error fault) : fault = .unknownOpcode := by
  rw [memoryOperand] at h
  split at h
  · split at h
    · simp only [] at h
      split at h
      · cases h
        rfl
      · cases h
    · cases h
  · cases h

theorem rmValue_fault {a : Option Address} {size : UInt16} {access : Access} {register : SlotValue}
    {fault : Fault} (h : rmValue f a size access register = .error fault) :
    fault = .unknownOpcode := by
  cases a with
  | none => cases h
  | some a => exact memoryOperand_fault h

theorem rmRegister_fault {a : Option Address} {register : SlotValue} {fault : Fault}
    (h : rmRegister a register = .error fault) : fault = .unknownOpcode := by
  cases a with
  | none => cases h
  | some a =>
      cases h
      rfl

theorem immediateBytes_le (bits : UInt16) : immediateBytes bits ≤ 8 := by
  simp only [immediateBytes]
  split <;> omega

theorem bytes_le (w : Width) : w.bytes ≤ 8 := by
  cases w <;> decide

theorem liftExcept_truthful {e : Except Fault SlotValue}
    (h : ∀ fault, e = .error fault → fault = .unknownOpcode) :
    (readSlot.liftExcept e).Truthful := by
  cases e with
  | ok value => exact .pure value
  | error fault =>
      rw [h fault rfl]
      exact .fail trivial

theorem readSlot_truthful (f : Frame) (a : Option Address) (address : UInt64) (slot : Slot) :
    (readSlot f a address slot).Truthful := by
  cases hsource : slot.source <;> simp only [readSlot, hsource]
  case rm | vecRm | mmxRm | maskRm => exact liftExcept_truthful fun _ => rmValue_fault
  case rmReg | vecRmReg | mmxRmReg => exact liftExcept_truthful fun _ => rmRegister_fault
  case mem =>
    split
    · exact liftExcept_truthful fun _ => memoryOperand_fault
    · exact .fail trivial
  case segmentReg =>
    split
    · exact .fail trivial
    · exact .pure _
  case vecImm => exact .bind .byte fun imm => .pure _
  case imm => exact .bind (.unsigned (immediateBytes_le _)) fun value => .pure _
  case offset => exact .bind (.unsigned (bytes_le _)) fun value => .pure _
  case signedImm => exact .bind (.signed (immediateBytes_le _)) fun value => .pure _
  case rel =>
    exact .bind (.signed (immediateBytes_le _)) fun disp => .bind .used fun _ => .pure _
  case farPointer =>
    refine .bind (.unsigned ?_) fun offset => .bind (.unsigned (by decide)) fun selector => .pure _
    split <;> decide
  all_goals exact .pure _

theorem readSlots_truthful (f : Frame) (a : Option Address) (address : UInt64)
    (slots : List Slot) (body : Body) : (readSlots f a address slots body).Truthful := by
  induction slots generalizing body with
  | nil => exact .pure body
  | cons slot slots ih => exact (readSlot_truthful f a address slot).bind fun value => ih _

theorem readOperands_truthful (f : Frame) (address : UInt64) :
    (readOperands f address).Truthful :=
  (readAddress_truthful f).bind fun a => readSlots_truthful f a address _ _

/-- A body is refused for the length of its encoding, or for what the fault says. -/
theorem readBody_fault (hrun : readBody f address t = .error err t') :
    err.fault.IsTrueOf t.rest.length ∨
      (∃ body, readOperands f address t = .ok body t') ∧ maxLength < t'.used ∧
        err.fault = .excessivePrefixes f.head.prefixes.count := by
  rcases of_bind_error hrun with hoperands | ⟨body, t₁, hoperands, hrest⟩
  · exact .inl ((readOperands_truthful f address).inOperand.fault t err t' hoperands)
  · rcases of_bind_error hrest with hused | ⟨length, t₂, hused, hcheck⟩
    · cases hused
    · cases hused
      split at hcheck
      · next hlong =>
          cases hcheck
          exact .inr ⟨⟨body, of_inOperand_ok hoperands⟩, hlong, rfl⟩
      · cases hcheck

/-! ## The whole instruction

Two places report too many prefixes, and each has a number of its own. Both numbers
are that of the run of prefix bytes, as far as the fifteenth: a scan that ends before
has counted the run, and one that does not stops there. -/

/-- What makes an instruction too long, and how many prefixes are reported for it: fifteen of them,
or an encoding that is longer than any may be. -/
inductive Overlong (mode : Width) (address : UInt64) (t : Tape) : Nat → Prop
  | run (hrun : 15 ≤ (prefixRun mode t.rest).length) : Overlong mode address t 15
  | encoding {f : Frame} {body : Body} {t₁ t₂ : Tape} (hframe : readFrame mode t = .ok f t₁)
      (hoperands : readOperands f address t₁ = .ok body t₂) (hlong : maxLength < t₂.used) :
      Overlong mode address t f.head.prefixes.count

/-- A frame has counted the run of prefix bytes. -/
theorem readFrame_count (hrun : readFrame mode t = .ok f t') :
    f.head.prefixes.count = (prefixRun mode t.rest).length ∧
      (prefixRun mode t.rest).length < 15 := by
  obtain ⟨t₁, t₂, hhead, -, -⟩ := of_readFrame hrun
  obtain ⟨hmade, hlen⟩ := readHead_prefixRun hhead
  exact ⟨by rw [hmade.prefixes_eq]; rfl, hlen⟩

/-- The number that is reported is that of the prefix bytes, as far as the scan goes. -/
theorem Overlong.count_eq {count : Nat} (h : Overlong mode address t count) :
    count = min 15 (prefixRun mode t.rest).length := by
  cases h with
  | run hrun => exact (Nat.min_eq_left hrun).symm
  | encoding hframe =>
      obtain ⟨hcount, hlen⟩ := readFrame_count hframe
      rw [hcount, Nat.min_eq_right (Nat.le_of_lt hlen)]

theorem readParts_fault (hrun : readParts mode address t = .error err t') :
    err.fault.IsTrueOf t.rest.length ∨
      ∃ count, Overlong mode address t count ∧ err.fault = .excessivePrefixes count := by
  rcases of_bind_error hrun with hframe | ⟨f, t₁, hframe, hrest⟩
  · rcases readFrame_fault hframe with htrue | ⟨hlen, hfault⟩
    · exact .inl htrue
    · exact .inr ⟨15, .run hlen, hfault⟩
  · rcases of_bind_error hrest with hbody | ⟨body, t₂, -, hpure⟩
    · rcases readBody_fault hbody with htrue | ⟨⟨body, hoperands⟩, hlong, hfault⟩
      · obtain ⟨prefixes, escape, htook, -⟩ := readFrame_took hframe
        exact .inl (htrue.mono htook.length_le)
      · exact .inr ⟨_, .encoding hframe hoperands hlong, hfault⟩
    · cases hpure

end X86

theorem Mips.readParts_truthful (v : Mips.Variant) (address : UInt64) :
    (Mips.readParts v address).Truthful := by
  refine .bind (.bind (.bytes (by decide)) fun _ => .pure _) fun w => ?_
  split
  · exact .fail trivial
  · split
    · constructor
      · intro t e t' hrun
        cases hrun
        trivial
      · intro t a t' hrun
        cases hrun
    · exact .pure _

namespace Engine

variable {e : Engine} {bytes : List UInt8} {offset : Nat} {address : UInt64} {err : DecodeError}

theorem minLength_le (a : Architecture) : a.minLength ≤ 8 := by
  cases a <;> decide

/-- A failure is true of the bytes from the offset on, or it is of an x86 instruction that is too
long. -/
theorem fault_cases (h : e.decodeOne bytes offset address = .error err) :
    err.fault.IsTrueOf (bytes.length - offset) ∨
      e.architecture = .x86 ∧ ∃ count, err.fault = .excessivePrefixes count ∧
        X86.Overlong e.mode.width address (Tape.ofOffset bytes offset) count := by
  by_cases hoffset : bytes.length < offset
  · rw [decodeOne_beyond e address hoffset] at h
    cases h
    exact .inl ⟨minLength_pos e.architecture, minLength_le e.architecture, Nat.zero_le _⟩
  have hle := Nat.le_of_not_lt hoffset
  have hleft : (Tape.ofOffset bytes offset).rest.length = bytes.length - offset :=
    List.length_drop
  cases he : e.architecture with
  | x86 =>
      cases hrun : X86.readParts e.mode.width address (Tape.ofOffset bytes offset) with
      | ok parts t =>
          rw [X86.decodeOne_of_parts he hle hrun] at h
          cases h
      | error err' t =>
          rw [X86.decodeOne_of_parts_error he hle hrun] at h
          cases h
          rw [← hleft]
          rcases X86.readParts_fault hrun with htrue | ⟨count, hlong, hfault⟩
          · exact .inl htrue
          · exact .inr ⟨rfl, count, hfault, hlong⟩
  | mips =>
      cases hrun : Mips.readParts (.ofMode e.mode) address (Tape.ofOffset bytes offset) with
      | ok parts t =>
          rw [Mips.decodeOne_of_parts he hle hrun] at h
          cases h
      | error err' t =>
          rw [Mips.decodeOne_of_parts_error he hle hrun] at h
          cases h
          rw [← hleft]
          exact .inl ((Mips.readParts_truthful _ address).fault _ err' t hrun)

/-- The numbers of a failure are in their bounds, wherever the decode was tried. -/
theorem fault_of_decodeOne (h : e.decodeOne bytes offset address = .error err) :
    err.fault.IsBounded := by
  rcases fault_cases h with htrue | ⟨-, count, hfault, hlong⟩
  · exact htrue.isBounded
  · rw [hfault, hlong.count_eq]
    exact Nat.min_le_left 15 _

end Engine

end MachineCode
