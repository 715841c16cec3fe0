import MachineCode.Proofs.X86.Broadcast

/-!
# Decorations of EVEX

An EVEX payload can ask for a write mask, for zeroing, and with one further bit
for a broadcast, a rounding mode or the suppression of exceptions; which of these
the bit means is a matter of the ModRM byte and of the row. The bit therefore
comes to one thing at most: a broadcast with the memory form, and otherwise what
the row provides for. The mask is put on the destination alone, once the operands
are read, and no slot gives an operand that has one before.
-/

namespace MachineCode.X86

open Bytes Read

variable {f : Frame} {a : Option Address} {slot : Slot} {o : Operand} {mode : Width}
  {run : List UInt8} {t t' : Tape}

theorem readPayload_evex {h : Head} {x y z : UInt8}
    (hok : (Scan.readPayload h .evex [x, y, z]).2 = none) :
    (Scan.readPayload h .evex [x, y, z]).1.fields =
      ((Fields.ofLongFirst x).addLong y z).inMode h.mode := by
  simp only [Scan.readPayload, Scan.readLong] at hok ⊢
  split at hok
  · cases hok
  · next hbits =>
      rw [if_neg hbits]
      split at hok
      · cases hok
      · rfl

/-- A scan that came to EVEX has read the fields off the three bytes behind the escape. -/
theorem Scan.Summarizes.evex_fields {s : Scan} {behind : List UInt8}
    (hs : s.Summarizes mode t run behind) (hrest : t.rest = run ++ behind)
    (hfault : s.fault = none) (hevex : s.head.encoding = .evex) :
    ∃ x y z after, behind = 0x62 :: x :: y :: z :: after ∧
      s.head.fields = ((Fields.ofLongFirst x).addLong y z).inMode mode := by
  cases hs.endsBefore (hs.length_lt hfault) with
  | underrun hend | refused _ _ hend =>
      rw [hend] at hfault
      cases hfault
  | legacy b after hend =>
      rw [hend] at hevex
      cases hevex
  | escaped escape after hend =>
      have hafter : (t.advance (run.length + 1)).rest = after := by
        rw [Tape.advance, hrest, List.append_cons, List.drop_left' (by simp)]
      have hlong : escape.payloadLength ≤ after.length := by
        refine Nat.le_of_not_lt fun hshort => ?_
        rw [hend.short (hafter ▸ hshort)] at hfault
        cases hfault
      have hwhole := hend.whole (hafter ▸ hlong)
      rw [hafter] at hwhole
      rw [hwhole] at hfault hevex ⊢
      rw [(readPayload_keeps _ escape _).2.2] at hevex
      cases escape with
      | vexShort | vexLong | xop => cases hevex
      | evex =>
          obtain ⟨x, y, z, htake⟩ : ∃ x y z, after.take Escape.evex.payloadLength = [x, y, z] :=
            List.length_eq_three.mp (List.length_take_of_le hlong)
          have hsplit := List.take_append_drop Escape.evex.payloadLength after
          rw [htake] at hfault hsplit ⊢
          exact ⟨x, y, z, _, congrArg (Escape.evex.lead :: ·) hsplit.symm, readPayload_evex hfault⟩

/-- The fields of an EVEX frame are those of three bytes of the instruction. -/
theorem readFrame_evexFields (hrun : readFrame mode t = .ok f t') (hevex : f.isEvex = true) :
    ∃ x y z after, t.rest = prefixRun mode t.rest ++ 0x62 :: x :: y :: z :: after ∧
      f.head.fields = ((Fields.ofLongFirst x).addLong y z).inMode mode := by
  obtain ⟨t₁, t₂, hhead, -, -⟩ := of_readFrame hrun
  obtain ⟨hfault, hsame⟩ := scan_of_readHead hhead
  have hsplit := prefixRun_append mode t.rest
  have hs := summarizes_prefixRun mode t
  obtain ⟨x, y, z, after, hbehind, hfields⟩ :=
    hs.evex_fields hsplit hfault (hsame ▸ of_decide_eq_true hevex)
  rw [hbehind] at hsplit
  exact ⟨x, y, z, after, hsplit, hsame ▸ hfields⟩

/-- The write mask of a frame: the register of the payload's number. -/
theorem Frame.opmask_eq (hevex : f.isEvex = true) (haaa : f.head.fields.aaa ≠ 0)
    (hlt : f.head.fields.aaa.toNat < 8) :
    ∃ n : BitVec 3, n.toNat = f.head.fields.aaa.toNat ∧ f.opmask = .opmask n := by
  refine ⟨f.head.fields.aaa.toBitVec.setWidth 3, ?_, ?_⟩
  · rw [BitVec.toNat_setWidth]
    exact Nat.mod_eq_of_lt hlt
  · rw [opmask, hevex, bne_iff_ne.mpr haaa]
    rfl

theorem Frame.opmask_eq_absent (hnone : ¬(f.isEvex = true ∧ f.head.fields.aaa ≠ 0)) :
    f.opmask = .absent := by
  rw [opmask, if_neg]
  rw [Bool.and_eq_true, bne_iff_ne]
  exact hnone

theorem aaa_lt_of_payload {x y z : UInt8}
    (hfields : f.head.fields = ((Fields.ofLongFirst x).addLong y z).inMode mode) :
    f.head.fields.aaa.toNat < 8 := by
  have haaa : f.head.fields.aaa = z &&& 7 := by
    rw [hfields, Fields.inMode]
    split <;> rfl
  rw [haaa]
  exact and_seven_lt z

/-- No slot gives an operand with a mask. -/
theorem Slot.Gives.bare_eq (ho : slot.Gives f a o) : o.bare = o := by
  cases ho <;> rfl

/-- Only the first operand is masked, and only EVEX masks it. -/
structure MasksFirst (f : Frame) (operands : List Operand) : Prop where
  first : ∀ o, operands.head? = some o → o.mask = .ofX86 f.opmask
  others : ∀ o ∈ operands.tail, o.mask = .absent ∧ o.zeroing = false
  plain : f.isEvex = false → ∀ o ∈ operands, o.mask = .absent ∧ o.zeroing = false

theorem decorate_masksFirst {operands : List Operand} (hbare : ∀ o ∈ operands, o.bare = o) :
    MasksFirst f (decorate f operands) := by
  have hplain : ∀ o ∈ operands, o.mask = .absent ∧ o.zeroing = false := by
    intro o ho
    rw [← hbare o ho]
    exact ⟨rfl, rfl⟩
  rw [decorate.eq_def]
  split
  · next hmasked =>
      rw [Bool.and_eq_true] at hmasked
      refine ⟨?_, ?_, fun hnot => ?_⟩
      · cases operands with
        | nil => exact fun o ho => by cases ho
        | cons dest others =>
            rintro o ⟨⟩
            rfl
      · cases operands with
        | nil => exact fun o ho => absurd ho List.not_mem_nil
        | cons dest others => exact fun o ho => hplain o (List.mem_cons_of_mem dest ho)
      · rw [hnot] at hmasked
        cases hmasked.1
  · next hunmasked =>
      -- without a mask in the payload, that of the frame is absent
      have habsent : f.opmask = .absent := by
        by_contra hpresent
        have hevex : f.isEvex = true := by
          by_contra hnot
          exact hpresent (Frame.opmask_eq_absent fun hmask => hnot hmask.1)
        exact hunmasked (by rw [hevex, decide_eq_true hpresent]; rfl)
      refine ⟨fun o ho => ?_, fun o ho => hplain o (List.mem_of_mem_tail ho), fun _ => hplain⟩
      rw [(hplain o (List.mem_of_head? ho)).1, habsent]
      rfl

/-- Whether the payload has the bit that asks for a broadcast or a control. -/
def Frame.hasBroadcastBit (f : Frame) : Bool :=
  f.isEvex && f.head.fields.broadcast

theorem Slot.Gives.of_broadcast (ho : slot.Gives f a o) (hsome : o.broadcast.isSome = true) :
    f.hasBroadcastBit = true ∧ a.isSome = true ∧ ∃ m, o.kind = .memory m := by
  cases ho with
  | element x _ _ _ ha _ hbroadcast => exact ⟨hbroadcast, ha ▸ rfl, _, rfl⟩
  | _ => cases hsome

/-- At most one operand is broadcast: memory, of an EVEX frame with an address and the bit. -/
structure BroadcastsOnce (f : Frame) (operands : List Operand) : Prop where
  length_le : (operands.filter (·.broadcast.isSome)).length ≤ 1
  memory : ∀ o ∈ operands, o.broadcast.isSome = true →
    f.hasBroadcastBit = true ∧ f.hasAddress = true ∧ ∃ m, o.kind = .memory m

theorem broadcastsOnce_of_spellsOperands {body : Body} {address : UInt64} {length : Nat}
    {disp : List UInt8} {parts : List Part} (hf : f.Chosen)
    (h : f.SpellsOperands a body address length disp parts) :
    BroadcastsOnce f (decorate f body.operands) := by
  have hmemory : ∀ o ∈ decorate f body.operands, o.broadcast.isSome = true →
      f.hasBroadcastBit = true ∧ f.hasAddress = true ∧ ∃ m, o.kind = .memory m := by
    intro o ho hsome
    obtain ⟨o', ho', hbare⟩ := exists_bare_of_mem_decorate ho
    obtain ⟨slot, hslot⟩ := h.exists_gives ho'
    rw [← o.bare_broadcast, ← hbare, o'.bare_broadcast] at hsome
    rw [← o.bare_kind, ← hbare, o'.bare_kind, ← h.spells_address.isSome_eq]
    exact hslot.of_broadcast hsome
  refine ⟨?_, hmemory⟩
  cases haddress : f.hasAddress with
  | false =>
      have hnone : (decorate f body.operands).filter (·.broadcast.isSome) = [] := by
        refine List.filter_eq_nil_iff.mpr fun o ho hsome => ?_
        rw [haddress] at hmemory
        cases (hmemory o ho hsome).2.1
      rw [hnone]
      exact Nat.zero_le 1
  | true =>
      obtain ⟨slot, before, o, after, hplaces⟩ := h.placesAddress hf haddress
      have hothers : ∀ x, x ∈ before ∨ x ∈ after → x.broadcast.isSome = false := by
        intro x hx
        obtain ⟨s, -, htakes, hgives⟩ := hplaces.others x hx
        rw [hgives.broadcast_eq htakes]
        rfl
      obtain ⟨o', -, hfilter⟩ := filter_decorate (f := f) (o := o) (q := (·.broadcast.isSome))
        (fun _ => rfl) (fun x hx => hothers x (.inl hx)) (fun x hx => hothers x (.inr hx))
      rw [hplaces.operands_eq, hfilter]
      exact List.length_filter_le _ _

/-! ## Embedded control

The bit that broadcasts with the memory form asks for a control with the register form.
A row that provides for none is not chosen then, so the control can be read off the
row. -/

/-- Whether the bit asks for a control: the ModRM byte has the register form. -/
def Frame.asksControl (f : Frame) : Bool :=
  f.hasBroadcastBit && isRegisterForm f.modrm

theorem Frame.hasAddress_of_asksControl (h : f.asksControl = true) : f.hasAddress = false := by
  rw [asksControl, Bool.and_eq_true] at h
  by_contra haddress
  rw [isRegisterForm_of_hasAddress (Bool.not_eq_false _ ▸ haddress)] at h
  cases h.2

theorem RoundingMode.ofField_ne_absent (b : UInt8) : ofField b ≠ .absent := by
  have hlt : b.toNat % 4 < 4 := Nat.mod_lt _ (by decide)
  have hall : ∀ n < 4, RoundingMode.ofNat (n + 1) ≠ .absent := by decide
  exact hall _ hlt

/-- With a register form, the bit needs a row that provides for a control. -/
theorem Frame.registerControl_ne_none (hallows : allowsFields f.head f.row f.modrm = true)
    (hasks : f.asksControl = true) : f.row.registerControl ≠ .none := by
  rw [asksControl, hasBroadcastBit, Bool.and_eq_true, Bool.and_eq_true] at hasks
  obtain ⟨⟨hevex, hbit⟩, hform⟩ := hasks
  have hencoding : f.head.encoding = .evex := of_decide_eq_true hevex
  simp only [allowsFields, hencoding, hform, hbit, reduceCtorEq, if_false, if_true, Bool.not_true,
    Bool.false_or, Bool.and_eq_true, decide_eq_true_eq] at hallows
  exact hallows.2.2

/-- The control is what the row provides for. -/
theorem Frame.control_eq (hallows : allowsFields f.head f.row f.modrm = true)
    (hlength : vectorLengthOf? f.head f.row f.modrm = some (f.vectorLength, f.control)) :
    (f.asksControl = false ∧ f.control = .none) ∨
      (f.asksControl = true ∧
        (f.row.registerControl = .rounding ∧ f.control = .rounding (.ofField f.head.fields.length) ∨
          f.row.registerControl = .suppress ∧ f.control = .suppress)) := by
  cases hencoding : f.head.encoding with
  | legacy | vex | xop =>
      have hplain : f.asksControl = false := by
        rw [asksControl, hasBroadcastBit, isEvex, hencoding]
        rfl
      rw [vectorLengthOf?, hencoding] at hlength
      exact .inl ⟨hplain, (Prod.mk.inj (Option.some.inj hlength)).2.symm⟩
  | evex =>
      have hasks : f.asksControl = (f.head.fields.broadcast && isRegisterForm f.modrm) := by
        rw [asksControl, hasBroadcastBit, isEvex, hencoding]
        rfl
      rw [vectorLengthOf?, hencoding] at hlength
      simp only [← hasks] at hlength
      split at hlength
      · next hask =>
          refine .inr ⟨hask, ?_⟩
          split at hlength
          · next hrounding =>
              exact .inl ⟨hrounding, (Prod.mk.inj (Option.some.inj hlength)).2.symm⟩
          · next hrounding =>
              refine .inr ⟨?_, (Prod.mk.inj (Option.some.inj hlength)).2.symm⟩
              have hprovides := registerControl_ne_none hallows hask
              cases hcontrol : f.row.registerControl with
              | none => exact absurd hcontrol hprovides
              | rounding => exact absurd hcontrol hrounding
              | suppress => rfl
      · next hask =>
          refine .inl ⟨Bool.eq_false_iff.mpr hask, ?_⟩
          repeat' split at hlength
          all_goals first
            | exact (Prod.mk.inj (Option.some.inj hlength)).2.symm
            | cases hlength

theorem detailOf_control (hallows : allowsFields f.head f.row f.modrm = true)
    (hlength : vectorLengthOf? f.head f.row f.modrm = some (f.vectorLength, f.control))
    (body : Body) :
    ((detailOf f body).rounding ≠ .absent ↔
      f.asksControl = true ∧ f.row.registerControl = .rounding) ∧
    ((detailOf f body).suppressExceptions = true ↔
      f.asksControl = true ∧ f.row.registerControl = .suppress) := by
  rcases Frame.control_eq hallows hlength with ⟨hasks, hnone⟩ | ⟨hasks, ⟨hrow, hmode⟩ | ⟨hrow, hrest⟩⟩
  · simp [detailOf, hasks, hnone]
  · simp [detailOf, hasks, hrow, hmode, RoundingMode.ofField_ne_absent]
  · simp [detailOf, hasks, hrow, hrest]

/-- The decorations of an instruction, as its operands and its record show them. -/
structure Frame.Decorates (f : Frame) (i : Instruction) (d : Detail) : Prop where
  encoding_eq : d.encoding = f.head.encoding
  /-- The fields of EVEX are those of the three bytes behind the escape. -/
  payload : d.encoding = .evex → ∃ x y z after,
    i.bytes = prefixRun f.head.mode i.bytes ++ 0x62 :: x :: y :: z :: after ∧
    f.head.fields = ((Fields.ofLongFirst x).addLong y z).inMode f.head.mode
  mask_first : ∀ o, i.operands.head? = some o → o.mask = .ofX86 d.opmask
  mask_others : ∀ o ∈ i.operands.tail, o.mask = .absent ∧ o.zeroing = false
  opmask_some : d.encoding = .evex → f.head.fields.aaa ≠ 0 →
    ∃ n : BitVec 3, n ≠ 0 ∧ n.toNat = f.head.fields.aaa.toNat ∧ d.opmask = .opmask n
  opmask_none : d.encoding ≠ .evex ∨ f.head.fields.aaa = 0 → d.opmask = .absent
  broadcast_le : (i.operands.filter (·.broadcast.isSome)).length ≤ 1
  broadcast_memory : ∀ o ∈ i.operands, o.broadcast.isSome = true → ∃ m, o.kind = .memory m
  /-- There is a control if the payload asks for one, and it is the one that the row has. -/
  rounding_iff : d.rounding ≠ .absent ↔ f.asksControl = true ∧ f.row.registerControl = .rounding
  suppress_iff : d.suppressExceptions = true ↔
    f.asksControl = true ∧ f.row.registerControl = .suppress
  exclusive : ¬(d.rounding ≠ .absent ∧ d.suppressExceptions = true)
  control_alone : d.rounding ≠ .absent ∨ d.suppressExceptions = true →
    ∀ o ∈ i.operands, o.broadcast = none
  plain : d.encoding ≠ .evex → d.rounding = .absent ∧ d.suppressExceptions = false ∧
    ∀ o ∈ i.operands, o.mask = .absent ∧ o.zeroing = false ∧ o.broadcast = none

theorem instructionOf_decorates {mode : Width} {body : Body} {address : UInt64}
    {bytes : List UInt8} {t₁ t₂ : Tape}
    (hframe : readFrame mode { rest := bytes } = .ok f t₁)
    (hbody : readBody f address t₁ = .ok body t₂) (detail : Bool) :
    f.Decorates (instructionOf f body bytes address detail) (detailOf f body) := by
  obtain ⟨hmode, hf⟩ := readFrame_chosen hframe
  obtain ⟨hallows, hlength⟩ := readFrame_allows hframe
  obtain ⟨body₁, hoperands, -, rfl⟩ := operands_of_readBody hbody
  obtain ⟨a, t₃, disp, parts, -, -, hspells⟩ :=
    readOperands_took hf.regular.slots (fun _ _ _ => hf.regular.rel_last) hoperands
  have hmasks : MasksFirst f (decorate f body₁.operands) := by
    refine decorate_masksFirst fun o ho => ?_
    obtain ⟨slot, hgives⟩ := hspells.exists_gives ho
    exact hgives.bare_eq
  have hbroadcasts := broadcastsOnce_of_spellsOperands hf hspells
  obtain ⟨hrounding, hsuppress⟩ :=
    detailOf_control hallows hlength { body₁ with operands := decorate f body₁.operands }
  have hevex : f.head.encoding = .evex ↔ f.isEvex = true := decide_eq_true_iff.symm
  -- a control asks for the register form, and a broadcast for an address
  have halone : f.asksControl = true → ∀ o ∈ decorate f body₁.operands, o.broadcast = none := by
    intro hasks o ho
    rw [← Option.not_isSome_iff_eq_none]
    intro hsome
    have haddress := (hbroadcasts.memory o ho hsome).2.1
    rw [Frame.hasAddress_of_asksControl hasks] at haddress
    cases haddress
  refine {
    encoding_eq := rfl
    payload := ?_
    mask_first := hmasks.first
    mask_others := hmasks.others
    opmask_some := ?_
    opmask_none := fun h => Frame.opmask_eq_absent fun hboth =>
      h.elim (fun hne => hne (hevex.mpr hboth.1)) hboth.2
    broadcast_le := hbroadcasts.length_le
    broadcast_memory := fun o ho hsome => (hbroadcasts.memory o ho hsome).2.2
    rounding_iff := hrounding
    suppress_iff := hsuppress
    exclusive := ?_
    control_alone := fun h => halone (h.elim (fun hr => (hrounding.mp hr).1)
      fun hs => (hsuppress.mp hs).1)
    plain := ?_ }
  · intro h
    obtain ⟨x, y, z, after, hbytes, hfields⟩ := readFrame_evexFields hframe (hevex.mp h)
    rw [hmode]
    exact ⟨x, y, z, after, hbytes, hfields⟩
  · intro h haaa
    obtain ⟨x, y, z, -, -, hfields⟩ := readFrame_evexFields hframe (hevex.mp h)
    obtain ⟨n, hn, hopmask⟩ := Frame.opmask_eq (hevex.mp h) haaa (aaa_lt_of_payload hfields)
    refine ⟨n, ?_, hn, hopmask⟩
    rintro rfl
    exact haaa (UInt8.toNat_inj.mp hn.symm)
  · rintro ⟨hr, hs⟩
    have hrow := (hrounding.mp hr).2
    rw [(hsuppress.mp hs).2] at hrow
    cases hrow
  · intro hne
    have hplain : f.isEvex = false := Bool.eq_false_iff.mpr fun h => hne (hevex.mpr h)
    have hbit : f.hasBroadcastBit = false := by rw [Frame.hasBroadcastBit, hplain, Bool.false_and]
    have hasks : f.asksControl = false := by rw [Frame.asksControl, hbit, Bool.false_and]
    rw [hasks] at hrounding hsuppress
    refine ⟨?_, ?_, fun o ho => ?_⟩
    · by_contra hr
      cases (hrounding.mp hr).1
    · refine Bool.eq_false_iff.mpr fun hs => ?_
      cases (hsuppress.mp hs).1
    · obtain ⟨hmask, hzeroing⟩ := hmasks.plain hplain o ho
      refine ⟨hmask, hzeroing, ?_⟩
      rw [← Option.not_isSome_iff_eq_none]
      intro hsome
      have hbit' := (hbroadcasts.memory o ho hsome).1
      rw [hbit] at hbit'
      cases hbit'

/-- The decorations of every instruction are confined: a mask to the first operand, a broadcast to
one memory operand, a control to the register form and to one of two kinds, and all of them to
EVEX. -/
theorem decodeOne_decorates {e : Engine} {bytes : List UInt8} {offset next : Nat}
    {address : UInt64} {i : Instruction} (he : e.architecture = .x86)
    (hdetail : e.options.detail = true)
    (h : e.decodeOne bytes offset address = .ok (i, next)) :
    ∃ f d, (∃ t, readFrame e.mode.width { rest := i.bytes } = .ok f t) ∧
      i.detail = .x86 d ∧ f.Decorates i d := by
  obtain ⟨f, body, t, hframe, hbody, hi⟩ := body_of_decodeOne he h
  have hdecorates := instructionOf_decorates hframe hbody e.options.detail
  rw [← hi] at hdecorates
  refine ⟨f, detailOf f body, ⟨t, hframe⟩, ?_, hdecorates⟩
  rw [hi, hdetail]
  rfl

/-- `vaddps zmm1{k3}{z}, zmm2, zmm3, {rz-sae}`. -/
theorem decodeOne_decorates_vaddps :
    ∃ (i : Instruction) (f : Frame) (d : Detail),
      Engine.x86Of32.decodeOne [0x62, 0xf1, 0x6c, 0xfb, 0x58, 0xcb] 0 0x1000 = .ok (i, 6) ∧
      i.detail = .x86 d ∧ f.Decorates i d ∧ d.opmask = .opmask 3 ∧ d.rounding = .rz ∧
      f.asksControl = true ∧ f.row.registerControl = .rounding := by
  have hread : (Engine.x86Of32.decodeOne [0x62, 0xf1, 0x6c, 0xfb, 0x58, 0xcb] 0 0x1000).map
      (fun r => ((match r.1.detail with
        | .x86 d => some (d.opmask, d.rounding)
        | _ => none), r.2)) = .ok (some (.opmask 3, .rz), 6) := by
    decide +kernel
  obtain ⟨i, next, hrun, hshown⟩ := Engine.exists_of_map hread
  obtain ⟨hshown, rfl⟩ := Prod.mk.inj hshown
  obtain ⟨f, d, -, hd, hdecorates⟩ := decodeOne_decorates rfl rfl hrun
  rw [hd] at hshown
  obtain ⟨hopmask, hrounding⟩ := Prod.mk.inj (Option.some.inj hshown)
  have hcontrol := hdecorates.rounding_iff.mp (by rw [hrounding]; exact RoundingMode.noConfusion)
  exact ⟨i, f, d, hrun, hd, hdecorates, hopmask, hrounding, hcontrol⟩

end MachineCode.X86
