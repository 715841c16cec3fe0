import MachineCode.Bytes.Tape

/-!
# Sequential reading

A reader that takes its bytes one after the other, and looks at nothing it does
not take, has two properties. What it returns depends on the bytes it took: the
same bytes elsewhere, with anything behind them, give the same. And what it
refuses is refused for good, unless bytes were missing: more input cannot change
a verdict that was reached without it. `Settles` states both for one input, and
`Sequential` for all of them.

Sequencing keeps the properties, so a reader made of sequential parts needs no
argument of its own. A cut in the middle of what a sequential reader takes is
then always noticed as a shortage: had the reader succeeded, or refused, on the
part before the cut, it would have done the same on the whole.

Which of the two shortages a cut shows is a matter of order. `OperandsLast` says
that a reader which starved inside an operand never, with more input, starves
before one.
-/

namespace MachineCode

namespace Fault

/-- Whether bytes were missing. -/
def isShortage : Fault → Bool
  | .underrun .. | .truncatedOperand .. => true
  | .excessivePrefixes _ | .unknownOpcode => false

/-- Whether bytes were missing before the operands. -/
def isUnderrun : Fault → Bool
  | .underrun .. => true
  | _ => false

/-- Whether bytes were missing inside the operands. -/
def isTruncated : Fault → Bool
  | .truncatedOperand .. => true
  | _ => false

@[simp] theorem isShortage_inOperand (f : Fault) : f.inOperand.isShortage = f.isShortage := by
  cases f <;> rfl

@[simp] theorem isUnderrun_inOperand (f : Fault) : f.inOperand.isUnderrun = false := by
  cases f <;> rfl

/-- A shortage that is not met before the operands is met inside them. -/
theorem isTruncated_of_isShortage {f : Fault} (h : f.isShortage = true)
    (hu : f.isUnderrun = false) : f.isTruncated = true := by
  cases f with
  | truncatedOperand => rfl
  | underrun => cases hu
  | excessivePrefixes => cases h
  | unknownOpcode => cases h

/-- A shortage is one of two, by whether it is met before the operands. -/
theorem eq_of_isShortage {f : Fault} {before : Prop} [Decidable before]
    (h : f.isShortage = true) (hbefore : before ↔ f.isTruncated = false) :
    ∃ needed available,
      f = if before then .underrun needed available else .truncatedOperand needed available := by
  cases f with
  | underrun needed available => exact ⟨needed, available, (if_pos (hbefore.mpr rfl)).symm⟩
  | truncatedOperand needed available =>
      refine ⟨needed, available, (if_neg fun hb => ?_).symm⟩
      cases hbefore.mp hb
  | excessivePrefixes => cases h
  | unknownOpcode => cases h

theorem not_isUnderrun_of_isTruncated {f : Fault} (h : f.isTruncated = true) :
    f.isUnderrun = false := by
  cases f with
  | truncatedOperand => rfl
  | underrun => cases h
  | excessivePrefixes => cases h
  | unknownOpcode => cases h

end Fault

namespace Bytes

theorem Tape.advance_append (start used : Nat) (taken more : List UInt8) :
    (Tape.mk start used (taken ++ more)).advance taken.length =
      ⟨start, used + taken.length, more⟩ := by
  rw [Tape.advance, List.drop_left]

namespace Read

variable {α β : Type} {m : Read α} {f : α → Read β} {u : Nat} {bs taken : List UInt8}

theorem bind_ok {a : α} {t t' : Tape} (h : m t = .ok a t') : (m >>= f) t = f a t' := by
  show EStateM.bind m f t = _
  rw [EStateM.bind, h]

theorem bind_error {e : DecodeError} {t t' : Tape} (h : m t = .error e t') :
    (m >>= f) t = .error e t' := by
  show EStateM.bind m f t = _
  rw [EStateM.bind, h]

theorem bind_congr {m' : Read α} {t t' : Tape} (h : m t = m' t') :
    (m >>= f) t = (m' >>= f) t' := by
  show EStateM.bind m f t = EStateM.bind m' f t'
  rw [EStateM.bind, EStateM.bind, h]

/-- What was read in two parts. -/
theorem of_bind_ok {b : β} {t t' : Tape} (h : (m >>= f) t = .ok b t') :
    ∃ a t₁, m t = .ok a t₁ ∧ f a t₁ = .ok b t' := by
  cases hrun : m t with
  | ok a t₁ =>
      rw [bind_ok hrun] at h
      exact ⟨a, t₁, rfl, h⟩
  | error e t₁ =>
      rw [bind_error hrun] at h
      cases h

/-- What failed in one of two parts. -/
theorem of_bind_error {e : DecodeError} {t t' : Tape} (h : (m >>= f) t = .error e t') :
    m t = .error e t' ∨ ∃ a t₁, m t = .ok a t₁ ∧ f a t₁ = .error e t' := by
  cases hrun : m t with
  | ok a t₁ =>
      rw [bind_ok hrun] at h
      exact .inr ⟨a, t₁, rfl, h⟩
  | error e₁ t₁ =>
      rw [bind_error hrun] at h
      cases h
      exact .inl rfl

/-- The reader takes exactly these bytes and gives `a`, whatever follows them and wherever they
lie. -/
def Takes (m : Read α) (used : Nat) (taken : List UInt8) (a : α) : Prop :=
  ∀ start more, m ⟨start, used, taken ++ more⟩ = .ok a ⟨start, used + taken.length, more⟩

/-- The reader stops on these bytes with a fault, wherever they lie. If the fault is no shortage,
it stops so whatever follows. -/
def Refuses (m : Read α) (used : Nat) (bytes : List UInt8) (fault : Fault) : Prop :=
  ∀ start more, (fault.isShortage = true → more = []) →
    ∃ e t, m ⟨start, used, bytes ++ more⟩ = .error e t ∧ e.fault = fault

/-- Some of the bytes, or the fault, decide what the reader does. -/
def Settles (m : Read α) (used : Nat) (bytes : List UInt8) : Prop :=
  (∃ taken rest a, bytes = taken ++ rest ∧ m.Takes used taken a) ∨
    ∃ fault, m.Refuses used bytes fault

/-- The reader settles on every input. -/
def Sequential (m : Read α) : Prop :=
  ∀ used bytes, m.Settles used bytes

/-- Every fault of the reader has a property. -/
def Faults (m : Read α) (P : Fault → Prop) : Prop :=
  ∀ t e t', m t = .error e t' → P e.fault

/-- If the reader starves inside an operand, then with more bytes it does not starve before
one. -/
def OperandsLast (m : Read α) (used : Nat) (bytes : List UInt8) : Prop :=
  ∀ s e t, m ⟨s, used, bytes⟩ = .error e t → e.fault.isTruncated = true →
    ∀ s' more e' t', m ⟨s', used, bytes ++ more⟩ = .error e' t' → e'.fault.isUnderrun = false

theorem Takes.run {a : α} (h : m.Takes u taken a) (start : Nat) :
    m ⟨start, u, taken⟩ = .ok a ⟨start, u + taken.length, []⟩ := by
  have h := h start []
  rw [List.append_nil] at h
  exact h

theorem Refuses.run {fault : Fault} (h : m.Refuses u bs fault) (start : Nat) :
    ∃ e t, m ⟨start, u, bs⟩ = .error e t ∧ e.fault = fault := by
  have h := h start [] (fun _ => rfl)
  rw [List.append_nil] at h
  exact h

theorem Refuses.unique {fault fault' : Fault} (h : m.Refuses u bs fault)
    (h' : m.Refuses u bs fault') : fault = fault' := by
  obtain ⟨e, t, hrun, rfl⟩ := h.run 0
  obtain ⟨e', t', hrun', rfl⟩ := h'.run 0
  rw [hrun] at hrun'
  cases hrun'
  rfl

/-- A refusal that is no shortage stands whatever is appended. -/
theorem Refuses.append {fault : Fault} (h : m.Refuses u bs fault)
    (hfault : fault.isShortage = false) (more : List UInt8) :
    m.Refuses u (bs ++ more) fault := by
  intro start more' _
  rw [List.append_assoc]
  exact h start (more ++ more') fun hc => by rw [hfault] at hc; cases hc

theorem Settles.of_ok {a : α} {start : Nat} {t : Tape} (hm : m.Settles u bs)
    (h : m ⟨start, u, bs⟩ = .ok a t) :
    ∃ taken, bs = taken ++ t.rest ∧ t = ⟨start, u + taken.length, t.rest⟩ ∧
      m.Takes u taken a := by
  rcases hm with ⟨taken, rest, b, rfl, ht⟩ | ⟨fault, hr⟩
  · have hrun := ht start rest
    rw [h] at hrun
    cases hrun
    exact ⟨taken, rfl, rfl, ht⟩
  · obtain ⟨e, t', hrun, -⟩ := hr.run start
    rw [h] at hrun
    cases hrun

/-- A cut in the middle of what a reader takes is a shortage. On the part before the cut the
reader neither succeeds nor refuses, because it would do so on the whole. -/
theorem Takes.cut {a : α} (hm : ∀ bs, m.Settles u bs) (h : m.Takes u taken a)
    {k : Nat} (hk : k < taken.length) :
    ∃ fault, m.Refuses u (taken.take k) fault ∧ fault.isShortage = true := by
  rcases hm (taken.take k) with ⟨taken', rest, b, hcut, ht⟩ | ⟨fault, hr⟩
  · -- it would have taken the same few bytes of the whole
    exfalso
    have hwhole : taken = taken' ++ (rest ++ taken.drop k) := by
      rw [← List.append_assoc, ← hcut, List.take_append_drop]
    have hrun := ht 0 (rest ++ taken.drop k)
    rw [← hwhole, h.run 0] at hrun
    have hlen := congrArg List.length hcut
    rw [List.length_take, List.length_append] at hlen
    simp only [EStateM.Result.ok.injEq, Tape.mk.injEq] at hrun
    omega
  · refine ⟨fault, hr, ?_⟩
    cases hs : fault.isShortage with
    | true => rfl
    | false =>
        -- what is behind the cut would not have changed the refusal
        exfalso
        obtain ⟨e, t, hrun, -⟩ := hr 0 (taken.drop k) (fun hc => by rw [hs] at hc; cases hc)
        rw [List.take_append_drop, h.run 0] at hrun
        cases hrun

theorem Sequential.pure (a : α) : Sequential (pure a : Read α) :=
  fun _ bs => .inl ⟨[], bs, a, rfl, fun _ _ => rfl⟩

theorem Sequential.fail (fault : Fault) : Sequential (fail fault : Read α) :=
  fun _ _ => .inr ⟨fault, fun start _ _ => ⟨⟨start, fault⟩, _, rfl, rfl⟩⟩

theorem Sequential.used : Sequential Read.used :=
  fun u bs => .inl ⟨[], bs, u, rfl, fun _ _ => rfl⟩

theorem bytes_short {n : Nat} {t : Tape} (h : t.rest.length < n) :
    Read.bytes n t = .error ⟨t.position, .underrun n t.rest.length⟩ t := by
  have htake : t.rest.take n = t.rest := List.take_of_length_le (by omega)
  simp only [Read.bytes, htake]
  rw [if_neg (by omega)]
  rfl

theorem bytes_used {n : Nat} {t t' : Tape} {taken : List UInt8}
    (h : Read.bytes n t = .ok taken t') : t'.used = t.used + n := by
  simp only [Read.bytes] at h
  split at h
  · cases h; rfl
  · cases h

theorem Sequential.bytes (n : Nat) : Sequential (Read.bytes n) := by
  intro u bs
  by_cases hn : (bs.take n).length = n
  · refine .inl ⟨bs.take n, bs.drop n, bs.take n, (List.take_append_drop n bs).symm, ?_⟩
    intro start more
    have htake : (bs.take n ++ more).take n = bs.take n := List.take_left' hn
    have hadv := Tape.advance_append start u (bs.take n) more
    rw [hn] at hadv
    simp only [Read.bytes, htake, hn, if_true, hadv]
  · refine .inr ⟨.underrun n (bs.take n).length, fun start more hmore => ?_⟩
    rw [hmore rfl, List.append_nil]
    simp only [Read.bytes, if_neg hn]
    exact ⟨_, _, rfl, rfl⟩

theorem Sequential.byte : Sequential Read.byte := by
  intro u bs
  cases bs with
  | nil =>
      refine .inr ⟨.underrun 1 0, fun start more hmore => ?_⟩
      rw [hmore rfl]
      exact ⟨_, _, rfl, rfl⟩
  | cons b rest => exact .inl ⟨[b], rest, b, rfl, fun _ _ => rfl⟩

theorem Takes.bind {a : α} {b : β} {taken' : List UInt8} (hm : m.Takes u taken a)
    (hf : (f a).Takes (u + taken.length) taken' b) :
    (m >>= f).Takes u (taken ++ taken') b := by
  intro start more
  rw [List.append_assoc, bind_ok (hm start (taken' ++ more)), hf start more,
    List.length_append, Nat.add_assoc]

theorem Takes.bind_refuses {a : α} {rest : List UInt8} {fault : Fault}
    (hm : m.Takes u taken a) (hf : (f a).Refuses (u + taken.length) rest fault) :
    (m >>= f).Refuses u (taken ++ rest) fault := by
  intro start more hmore
  rw [List.append_assoc, bind_ok (hm start (rest ++ more))]
  exact hf start more hmore

theorem Refuses.bind {fault : Fault} (hm : m.Refuses u bs fault) :
    (m >>= f).Refuses u bs fault := by
  intro start more hmore
  obtain ⟨e, t, hrun, hfault⟩ := hm start more hmore
  exact ⟨e, t, bind_error hrun, hfault⟩

/-- A reader settles if it settles on what it takes first, and then on the rest. -/
theorem Settles.bind (hm : m.Settles u bs)
    (hf : ∀ taken rest a, bs = taken ++ rest → m.Takes u taken a →
      (f a).Settles (u + taken.length) rest) : (m >>= f).Settles u bs := by
  rcases hm with ⟨taken, rest, a, rfl, ht⟩ | ⟨fault, hr⟩
  · rcases hf taken rest a rfl ht with ⟨taken', rest', b, rfl, ht'⟩ | ⟨fault, hr⟩
    · exact .inl ⟨taken ++ taken', rest', b, (List.append_assoc ..).symm, ht.bind ht'⟩
    · exact .inr ⟨fault, ht.bind_refuses hr⟩
  · exact .inr ⟨fault, hr.bind⟩

theorem Sequential.bind (hm : m.Sequential) (hf : ∀ a, (f a).Sequential) :
    (m >>= f).Sequential :=
  fun u bs => (hm u bs).bind fun _ rest a _ _ => hf a _ rest

theorem Sequential.map {g : α → β} (hm : m.Sequential) : (g <$> m).Sequential := by
  rw [map_eq_pure_bind]
  exact hm.bind fun a => .pure (g a)

theorem Sequential.unsigned (n : Nat) : (Read.unsigned n).Sequential :=
  (Sequential.bytes n).map

theorem Sequential.signed (n : Nat) : (Read.signed n).Sequential :=
  (Sequential.bytes n).map

theorem inOperand_ok {a : α} {t t' : Tape} (h : m t = .ok a t') :
    m.inOperand t = .ok a t' := by
  rw [inOperand, h]

theorem inOperand_error {e : DecodeError} {t t' : Tape} (h : m t = .error e t') :
    m.inOperand t = .error e.inOperand t' := by
  rw [inOperand, h]

theorem Sequential.inOperand (hm : m.Sequential) : m.inOperand.Sequential := by
  intro u bs
  rcases hm u bs with ⟨taken, rest, a, rfl, ht⟩ | ⟨fault, hr⟩
  · exact .inl ⟨taken, rest, a, rfl, fun start more => inOperand_ok (ht start more)⟩
  · refine .inr ⟨fault.inOperand, fun start more hmore => ?_⟩
    obtain ⟨e, t, hrun, rfl⟩ := hr start more (by rwa [Fault.isShortage_inOperand] at hmore)
    exact ⟨e.inOperand, t, inOperand_error hrun, rfl⟩

theorem Takes.withBytes {a : α} (hm : m.Takes u taken a) :
    m.withBytes.Takes u taken (a, taken) := by
  intro start more
  rw [Read.withBytes, hm start more]
  simp only [Nat.add_sub_cancel_left, List.take_left]

theorem Takes.of_withBytes {a : α} {bytes : List UInt8} (hm : m.Settles u taken)
    (ht : m.withBytes.Takes u taken (a, bytes)) : m.Takes u taken a ∧ bytes = taken := by
  have hrun := ht.run 0
  rw [Read.withBytes] at hrun
  split at hrun
  · next b t hrun' =>
      obtain ⟨taken', hsplit, ht', hm'⟩ := hm.of_ok hrun'
      simp only [EStateM.Result.ok.injEq, Prod.mk.injEq] at hrun
      obtain ⟨⟨rfl, rfl⟩, rfl⟩ := hrun
      rw [List.append_nil] at hsplit
      rw [hsplit]
      exact ⟨hm', by rw [Nat.add_sub_cancel_left, List.take_length]⟩
  · cases hrun

theorem Takes.of_map {g : α → β} {b : β} (hm : m.Settles u taken)
    (ht : (m >>= fun a => Pure.pure (g a)).Takes u taken b) :
    ∃ a, m.Takes u taken a ∧ g a = b := by
  obtain ⟨a, t, hrun, hpure⟩ := of_bind_ok (ht.run 0)
  cases hpure
  obtain ⟨taken', hsplit, -, ht'⟩ := hm.of_ok hrun
  rw [List.append_nil] at hsplit
  rw [← hsplit] at ht'
  exact ⟨a, ht', rfl⟩

theorem withBytes_error {e : DecodeError} {t t' : Tape} (h : m t = .error e t') :
    m.withBytes t = .error e t' := by
  rw [withBytes, h]

theorem Sequential.withBytes (hm : m.Sequential) : m.withBytes.Sequential := by
  intro u bs
  rcases hm u bs with ⟨taken, rest, a, rfl, ht⟩ | ⟨fault, hr⟩
  · exact .inl ⟨taken, rest, (a, taken), rfl, ht.withBytes⟩
  · refine .inr ⟨fault, fun start more hmore => ?_⟩
    obtain ⟨e, t, hrun, hfault⟩ := hr start more hmore
    exact ⟨e, t, withBytes_error hrun, hfault⟩

variable {P : Fault → Prop}

theorem Faults.pure (a : α) : Faults (pure a : Read α) P := by
  intro t e t' h
  cases h

theorem Faults.fail {fault : Fault} (hp : P fault) : Faults (fail fault : Read α) P := by
  intro t e t' h
  cases h
  exact hp

theorem Faults.bind (hm : m.Faults P) (hf : ∀ a, (f a).Faults P) : (m >>= f).Faults P := by
  intro t e t' h
  rcases of_bind_error h with hrun | ⟨a, t₁, -, hrun⟩
  · exact hm _ _ _ hrun
  · exact hf a _ _ _ hrun

/-- Nothing that is read for operands is missing before them. -/
theorem Faults.inOperand (m : Read α) : m.inOperand.Faults (·.isUnderrun = false) := by
  intro t e t' h
  cases hrun : m t with
  | ok a t₁ =>
      rw [inOperand_ok hrun] at h
      cases h
  | error e₁ t₁ =>
      rw [inOperand_error hrun] at h
      cases h
      exact Fault.isUnderrun_inOperand e₁.fault

theorem Faults.withBytes (hm : m.Faults P) : m.withBytes.Faults P := by
  intro t e t' h
  rw [Read.withBytes] at h
  split at h
  · cases h
  · next e₁ t₁ hrun =>
      cases h
      exact hm _ _ _ hrun

theorem Faults.byte : Read.byte.Faults (·.isTruncated = false) := by
  intro t e t' h
  rw [Read.byte] at h
  split at h
  · cases h; rfl
  · cases h

theorem Faults.bytes (n : Nat) : (Read.bytes n).Faults (·.isTruncated = false) := by
  intro t e t' h
  simp only [Read.bytes] at h
  split at h
  · cases h
  · cases h; rfl

/-! ## Order of the shortages

A sequence keeps the order for one of two reasons. Either its first part reads no
operand, so an operand that starved lies in the second part; or its second part reads
nothing but operands, so what starves before one lies in the first part. -/

theorem Refuses.operandsLast {fault : Fault} (hr : m.Refuses u bs fault)
    (hfault : fault.isTruncated = false) : m.OperandsLast u bs := by
  intro s e t h htrunc
  obtain ⟨e', t', hrun, rfl⟩ := hr.run s
  rw [h] at hrun
  cases hrun
  rw [hfault] at htrunc
  cases htrunc

theorem OperandsLast.of_faults (hm : m.Faults (·.isTruncated = false)) :
    m.OperandsLast u bs := by
  intro s e t h htrunc
  rw [hm _ _ _ h] at htrunc
  cases htrunc

/-- Reading something that is not an operand first keeps the order. -/
theorem OperandsLast.bind_of_not_truncated (hm : m.Settles u bs)
    (hfault : m.Faults (·.isTruncated = false))
    (hf : ∀ taken rest a, bs = taken ++ rest → m.Takes u taken a →
      (f a).OperandsLast (u + taken.length) rest) : (m >>= f).OperandsLast u bs := by
  intro s e t h htrunc s' more e' t' h'
  rcases hm with ⟨taken, rest, a, rfl, ht⟩ | ⟨fault, hr⟩
  · rw [bind_ok (ht s rest)] at h
    rw [List.append_assoc, bind_ok (ht s' (rest ++ more))] at h'
    exact hf taken rest a rfl ht _ _ _ h htrunc _ _ _ _ h'
  · obtain ⟨e₁, t₁, hrun, -⟩ := hr.run s
    rw [bind_error hrun] at h
    cases h
    rw [hfault _ _ _ hrun] at htrunc
    cases htrunc

/-- Reading operands afterwards keeps the order. -/
theorem OperandsLast.bind_of_not_underrun (hm : m.Settles u bs)
    (hlast : m.OperandsLast u bs) (hf : ∀ a, (f a).Faults (·.isUnderrun = false)) :
    (m >>= f).OperandsLast u bs := by
  intro s e t h htrunc s' more e' t' h'
  rcases of_bind_error h' with hrun' | ⟨a, t₁, -, hrun'⟩
  · rcases hm with ⟨taken, rest, a, rfl, ht⟩ | ⟨fault, hr⟩
    · rw [List.append_assoc, ht s' (rest ++ more)] at hrun'
      cases hrun'
    · obtain ⟨e₂, t₂, hrun, -⟩ := hr.run s
      rw [bind_error hrun] at h
      cases h
      exact hlast _ _ _ hrun htrunc _ _ _ _ hrun'
  · exact hf a _ _ _ hrun'

theorem OperandsLast.withBytes (hm : m.OperandsLast u bs) : m.withBytes.OperandsLast u bs := by
  intro s e t h htrunc s' more e' t' h'
  rw [Read.withBytes] at h h'
  split at h
  · cases h
  · next hrun =>
      cases h
      split at h'
      · cases h'
      · next hrun' =>
          cases h'
          exact hm _ _ _ hrun htrunc _ _ _ _ hrun'

/-! ## Looking ahead

A reader that looks ahead behaves, once it has seen enough, like one that does
not. It settles if what was seen belongs to what the other reader takes. -/

theorem Settles.cons {m' : Read α} {b : UInt8}
    (hstep : ∀ start more, m ⟨start, u, b :: more⟩ = m' ⟨start, u + 1, more⟩)
    (hm : m'.Settles (u + 1) bs) : m.Settles u (b :: bs) := by
  rcases hm with ⟨taken, rest, a, rfl, ht⟩ | ⟨fault, hr⟩
  · refine .inl ⟨b :: taken, rest, a, rfl, fun start more => ?_⟩
    rw [List.cons_append, hstep, ht, List.length_cons, Nat.add_right_comm, Nat.add_assoc]
  · refine .inr ⟨fault, fun start more hmore => ?_⟩
    rw [List.cons_append, hstep]
    exact hr start more hmore

theorem OperandsLast.cons {m' : Read α} {b : UInt8}
    (hstep : ∀ start more, m ⟨start, u, b :: more⟩ = m' ⟨start, u + 1, more⟩)
    (hm : m'.OperandsLast (u + 1) bs) : m.OperandsLast u (b :: bs) := by
  intro s e t h htrunc s' more e' t' h'
  rw [hstep] at h
  rw [List.cons_append, hstep] at h'
  exact hm _ _ _ h htrunc _ _ _ _ h'

/-- From these bytes on, two readers are the same. -/
def AgreeAfter (m m' : Read α) (u : Nat) (seen : List UInt8) : Prop :=
  ∀ start more, m ⟨start, u, seen ++ more⟩ = m' ⟨start, u, seen ++ more⟩

theorem Settles.of_agreeAfter {m' : Read α} (seen : List UInt8) {post : List UInt8}
    (hagree : m.AgreeAfter m' u seen) (hm : m'.Settles u (seen ++ post))
    (hseen : ∀ taken rest a, seen ++ post = taken ++ rest → m'.Takes u taken a →
      seen.length ≤ taken.length) : m.Settles u (seen ++ post) := by
  rcases hm with ⟨taken, rest, a, hsplit, ht⟩ | ⟨fault, hr⟩
  · obtain ⟨tail, rfl⟩ : ∃ tail, taken = seen ++ tail := by
      have hle := hseen taken rest a hsplit ht
      refine ⟨taken.drop seen.length, ?_⟩
      have hpre : seen = taken.take seen.length := by
        have h := congrArg (List.take seen.length) hsplit
        rw [List.take_left, List.take_append_of_le_length hle] at h
        exact h
      exact (List.take_append_drop seen.length taken).symm.trans (by rw [← hpre])
    refine .inl ⟨seen ++ tail, rest, a, hsplit, fun start more => ?_⟩
    rw [List.append_assoc, hagree, ← List.append_assoc]
    exact ht start more
  · refine .inr ⟨fault, fun start more hmore => ?_⟩
    rw [List.append_assoc, hagree, ← List.append_assoc]
    exact hr start more hmore

theorem OperandsLast.of_agreeAfter {m' : Read α} (seen : List UInt8) {post : List UInt8}
    (hagree : m.AgreeAfter m' u seen) (hm : m'.OperandsLast u (seen ++ post)) :
    m.OperandsLast u (seen ++ post) := by
  intro s e t h htrunc s' more e' t' h'
  rw [hagree] at h
  rw [List.append_assoc, hagree, ← List.append_assoc] at h'
  exact hm _ _ _ h htrunc _ _ _ _ h'

theorem atLeast_short {n : Nat} {t : Tape} (h : t.rest.length < n) :
    Read.atLeast n t = .error ⟨t.start, .underrun n t.rest.length⟩ t := by
  have htake : t.rest.take n = t.rest := List.take_of_length_le (by omega)
  simp only [Read.atLeast, htake]
  rw [if_pos h]
  rfl

theorem atLeast_bind {n : Nat} {t : Tape} (h : n ≤ t.rest.length) :
    (Read.atLeast n >>= fun _ => m) t = m t := by
  refine bind_ok (a := ()) ?_
  have hlen : (t.rest.take n).length = n := by
    rw [List.length_take]
    omega
  simp only [Read.atLeast, hlen]
  rw [if_neg (Nat.lt_irrefl n)]

/-- Requiring bytes beforehand changes nothing for a reader that takes as many. -/
theorem Settles.atLeast {n : Nat} (hm : m.Settles u bs)
    (hn : ∀ taken a, m.Takes u taken a → n ≤ taken.length) :
    (Read.atLeast n >>= fun _ => m).Settles u bs := by
  by_cases hlen : bs.length < n
  · refine .inr ⟨.underrun n bs.length, fun start more hmore => ?_⟩
    rw [hmore rfl, List.append_nil]
    exact ⟨_, _, bind_error (atLeast_short hlen), rfl⟩
  · rcases hm with ⟨taken, rest, a, rfl, ht⟩ | ⟨fault, hr⟩
    · refine .inl ⟨taken, rest, a, rfl, fun start more => ?_⟩
      have hle : n ≤ (taken ++ more).length := by
        have := hn taken a ht
        rw [List.length_append]
        omega
      rw [atLeast_bind hle]
      exact ht start more
    · refine .inr ⟨fault, fun start more hmore => ?_⟩
      have hle : n ≤ (bs ++ more).length := by
        rw [List.length_append]
        omega
      rw [atLeast_bind hle]
      exact hr start more hmore

theorem OperandsLast.atLeast {n : Nat} (hm : m.OperandsLast u bs) :
    (Read.atLeast n >>= fun _ => m).OperandsLast u bs := by
  intro s e t h htrunc s' more e' t' h'
  by_cases hlen : bs.length < n
  · rw [bind_error (atLeast_short hlen)] at h
    cases h
    cases htrunc
  · have hle : n ≤ (bs ++ more).length := by
      rw [List.length_append]
      omega
    rw [atLeast_bind (Nat.le_of_not_lt hlen)] at h
    rw [atLeast_bind hle] at h'
    exact hm _ _ _ h htrunc _ _ _ _ h'

theorem Takes.of_atLeast {n : Nat} {a : α}
    (ht : (Read.atLeast n >>= fun _ => m).Takes u taken a) (hm : m.Settles u taken) :
    m.Takes u taken a := by
  have hrun := ht.run 0
  by_cases hlen : taken.length < n
  · rw [bind_error (atLeast_short hlen)] at hrun
    cases hrun
  · rw [atLeast_bind (Nat.le_of_not_lt hlen)] at hrun
    obtain ⟨taken', hsplit, -, ht'⟩ := hm.of_ok hrun
    rw [List.append_nil] at hsplit
    rw [hsplit]
    exact ht'

end Read

end Bytes

end MachineCode
