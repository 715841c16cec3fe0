import MachineCode.Proofs.Sequential

/-!
# Readers in lockstep

Two encodings of an instruction may differ in their first bytes and be the same
from there on. The readers of the common rest then run in lockstep: on the same
bytes, of which one has taken some more before. They read the same values and
fail with the same faults, and the distance between them stays what it was.

A reader is in lockstep with itself if it does not ask how much was taken. One
that does ask is in lockstep with one that makes up for the difference, and that
is all there is to show, since sequencing keeps lockstep.
-/

namespace MachineCode.Bytes

/-- The same tape when `d` more bytes were taken before. -/
def Tape.later (d : Nat) (t : Tape) : Tape :=
  { t with used := t.used + d }

theorem Tape.later_advance (d : Nat) (t : Tape) (n : Nat) :
    (t.later d).advance n = (t.advance n).later d := by
  rw [later, advance, later, advance, Nat.add_right_comm]

namespace Read

variable {α β : Type} {d : Nat} {m m' : Read α} {f f' : α → Read β}

/-- How two runs end that keep their distance: with the same value, or with the same fault. -/
inductive Matches (d : Nat) :
    EStateM.Result DecodeError Tape α → EStateM.Result DecodeError Tape α → Prop where
  | ok (a : α) (t : Tape) : Matches d (.ok a t) (.ok a (t.later d))
  | error {e e' : DecodeError} (t : Tape) (h : e'.fault = e.fault) :
      Matches d (.error e t) (.error e' (t.later d))

/-- On every tape, the second reader does `d` bytes later what the first one does. -/
def Lockstep (d : Nat) (m m' : Read α) : Prop :=
  ∀ t, Matches d (m t) (m' (t.later d))

theorem Matches.bind {t : Tape} (hrun : Matches d (m t) (m' (t.later d)))
    (hf : ∀ a, Lockstep d (f a) (f' a)) :
    Matches d ((m >>= f) t) ((m' >>= f') (t.later d)) := by
  generalize hx : m t = x at hrun
  generalize hy : m' (t.later d) = y at hrun
  cases hrun with
  | ok a t₁ =>
      rw [bind_ok hx, bind_ok hy]
      exact hf a t₁
  | error t₁ hfault =>
      rw [bind_error hx, bind_error hy]
      exact .error t₁ hfault

namespace Lockstep

theorem pure (a : α) : Lockstep d (pure a : Read α) (pure a) :=
  fun t => .ok a t

theorem fail (fault : Fault) : Lockstep d (fail fault : Read α) (fail fault) :=
  fun t => .error t rfl

theorem peek? : Lockstep d Read.peek? Read.peek? :=
  fun t => .ok t.rest.head? t

theorem byte : Lockstep d Read.byte Read.byte := by
  rintro ⟨start, used, rest⟩
  cases rest with
  | nil => exact .error _ rfl
  | cons b bs =>
      have hok := Matches.ok (d := d) b ((Tape.mk start used (b :: bs)).advance 1)
      rw [← Tape.later_advance] at hok
      exact hok

theorem bytes (n : Nat) : Lockstep d (Read.bytes n) (Read.bytes n) := by
  intro t
  have hrest : (t.later d).rest = t.rest := rfl
  simp only [Read.bytes, hrest, Tape.later_advance]
  split
  · exact .ok _ _
  · exact .error _ rfl

theorem bind (hm : Lockstep d m m') (hf : ∀ a, Lockstep d (f a) (f' a)) :
    Lockstep d (m >>= f) (m' >>= f') :=
  fun t => (hm t).bind hf

theorem map (hm : Lockstep d m m') (g : α → β) : Lockstep d (g <$> m) (g <$> m') := by
  rw [map_eq_pure_bind, map_eq_pure_bind]
  exact hm.bind fun a => .pure (g a)

theorem unsigned (n : Nat) : Lockstep d (Read.unsigned n) (Read.unsigned n) :=
  (bytes n).map _

theorem signed (n : Nat) : Lockstep d (Read.signed n) (Read.signed n) :=
  (bytes n).map _

theorem run_ok (hm : Lockstep d m m') {a : α} {t t₁ : Tape} (hrun : m t = .ok a t₁) :
    m' (t.later d) = .ok a (t₁.later d) := by
  have hmatch := hm t
  rw [hrun] at hmatch
  generalize hy : m' (t.later d) = y at hmatch
  cases hmatch
  rfl

/-- Asking how much was taken. -/
theorem bind_used {f f' : Nat → Read β} (hf : ∀ n, Lockstep d (f n) (f' (n + d))) :
    Lockstep d (Read.used >>= f) (Read.used >>= f') :=
  fun t => hf t.used t

theorem inOperand (hm : Lockstep d m m') : Lockstep d m.inOperand m'.inOperand := by
  intro t
  have hrun := hm t
  generalize hx : m t = x at hrun
  generalize hy : m' (t.later d) = y at hrun
  cases hrun with
  | ok a t₁ =>
      rw [inOperand_ok hx, inOperand_ok hy]
      exact .ok a t₁
  | error t₁ hfault =>
      rw [inOperand_error hx, inOperand_error hy]
      exact .error t₁ (congrArg Fault.inOperand hfault)

end Lockstep

end Read

end MachineCode.Bytes
