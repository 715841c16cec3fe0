import MachineCode.Proofs.Document.Config
import MachineCode.Proofs.Vocabulary

/-!
# Instructions read back

Every part of an instruction is read back from its document but for one: a
floating-point immediate is written as a decimal number that need not denote it,
and not at all if it is not finite. So an instruction is read back if it has no
such operand.
-/

namespace MachineCode

open JsonForm Json

theorem Vocabulary.lawful_jsonForm (α : Type) [Vocabulary α] [LawfulVocabulary α] :
    @LawfulJsonForm α (Vocabulary.jsonForm α) :=
  letI := Vocabulary.jsonForm α
  { readsBack := fun a => ⟨isPlain_text _, Vocabulary.ofTag?_tag a⟩ }

instance : LawfulJsonForm Group := Vocabulary.lawful_jsonForm Group
instance : LawfulJsonForm X86.Mnemonic := Vocabulary.lawful_jsonForm X86.Mnemonic
instance : LawfulJsonForm Mips.Mnemonic := Vocabulary.lawful_jsonForm Mips.Mnemonic
instance : LawfulJsonForm X86.Register := Vocabulary.lawful_jsonForm X86.Register
instance : LawfulJsonForm Mips.Register := Vocabulary.lawful_jsonForm Mips.Register
instance : LawfulJsonForm X86.SseCondition := Vocabulary.lawful_jsonForm X86.SseCondition
instance : LawfulJsonForm X86.AvxCondition := Vocabulary.lawful_jsonForm X86.AvxCondition
instance : LawfulJsonForm X86.XopCondition := Vocabulary.lawful_jsonForm X86.XopCondition
instance : LawfulJsonForm X86.RoundingMode := Vocabulary.lawful_jsonForm X86.RoundingMode

instance : LawfulJsonForm Register where
  readsBack
    | .absent => ⟨isPlain_text _, rfl⟩
    | .x86 r => (LawfulJsonForm.readsBack r).choice Register.x86 rfl rfl
    | .mips r => (LawfulJsonForm.readsBack r).choice Register.mips rfl rfl

instance : LawfulJsonForm Mnemonic where
  readsBack
    | .x86 m => (LawfulJsonForm.readsBack m).choice Mnemonic.x86 rfl rfl
    | .mips m => (LawfulJsonForm.readsBack m).choice Mnemonic.mips rfl rfl

instance : LawfulJsonForm Access where
  readsBack a := ⟨isPlain_text a.name, by cases a <;> rfl⟩

instance : LawfulJsonForm Broadcast where
  readsBack b := ⟨by cases b <;> exact isPlain_text _, by cases b <;> rfl⟩

instance : LawfulJsonForm MemoryRef where
  readsBack m := {
    plain := isPlain_record (by simp [isPlain_encode])
    decode := record?_bind (by simp [Record.required, List.lookup_cons]) (by decide) rfl }

/-- Whether an operand is something else than a floating-point number. -/
def Operand.IsExact (o : Operand) : Prop :=
  ∀ x, o.kind ≠ .floatImmediate x

theorem OperandKind.readsBack {k : OperandKind} (h : ∀ x, k ≠ .floatImmediate x) :
    ReadsBack k := by
  cases k with
  | register r => exact (LawfulJsonForm.readsBack r).choice OperandKind.register rfl rfl
  | immediate v => exact (LawfulJsonForm.readsBack v).choice OperandKind.immediate rfl rfl
  | memory m => exact (LawfulJsonForm.readsBack m).choice OperandKind.memory rfl rfl
  | floatImmediate x => exact absurd rfl (h x)

theorem Operand.readsBack {o : Operand} (h : o.IsExact) : ReadsBack o where
  plain := isPlain_record (by
    have hbroadcast : (ofOption o.broadcast).IsPlain :=
      isPlain_ofOption fun b _ => LawfulJsonForm.readsBack b
    simp [isPlain_encode, (OperandKind.readsBack h).plain, hbroadcast])
  decode := by
    have hkind : decode? (encode o.kind) = some o.kind := (OperandKind.readsBack h).decode
    have hbroadcast (r : Json.Record)
        (hr : r.fields.lookup "avx_bcast" = some (ofOption o.broadcast)) :
        r.optional "avx_bcast" = some o.broadcast :=
      Record.optional_ofOption hr (fun b => by cases b <;> exact Json.noConfusion)
        fun b _ => LawfulJsonForm.readsBack b
    exact record?_bind (by simp [Record.required, List.lookup_cons, hkind, hbroadcast])
      (by decide) rfl

instance : LawfulJsonForm X86.Encoding where
  readsBack e := ⟨by cases e <;> exact isPlain_text _, by cases e <;> rfl⟩

instance : LawfulJsonForm X86.FlagEffects where
  readsBack e := ⟨isPlain_text e.text, X86.FlagEffects.ofText?_text e⟩

instance : LawfulJsonForm X86.Detail where
  readsBack d := {
    plain := isPlain_record (by simp [isPlain_encode])
    decode := by
      refine record?_bind ?_ (by decide) rfl
      simp only [Record.required, List.lookup_cons, String.reduceBEq, decode?_encode,
        Option.bind_eq_bind, Option.bind_some, Option.pure_def] }

instance : LawfulJsonForm Mips.Detail where
  readsBack d := {
    plain := isPlain_record (by simp [isPlain_encode])
    decode := record?_bind (by simp [Record.required, List.lookup_cons]) (by decide) rfl }

instance : LawfulJsonForm Detail where
  readsBack
    | .none => ⟨isPlain_text _, rfl⟩
    | .x86 d => (LawfulJsonForm.readsBack d).choice Detail.x86 rfl rfl
    | .mips d => (LawfulJsonForm.readsBack d).choice Detail.mips rfl rfl

theorem Instruction.readsBack {i : Instruction} (h : ∀ o ∈ i.operands, o.IsExact) :
    ReadsBack i where
  plain := isPlain_record (by
    have hoperands : (encode i.operands).IsPlain :=
      (ReadsBack.list fun o ho => Operand.readsBack (h o ho)).plain
    simp [isPlain_encode, hoperands])
  decode := by
    have hoperands : decode? (encode i.operands) = some i.operands :=
      (ReadsBack.list fun o ho => Operand.readsBack (h o ho)).decode
    exact record?_bind (by simp [Record.required, List.lookup_cons, hoperands]) (by decide) rfl

end MachineCode
