import MachineCode.Proofs.Sequential

/-!
# What a run took

A run that succeeded has moved the tape behind some bytes. Which bytes these are
is put together from the runs of its parts: what a sequence took is what its
parts took, one after the other, and a number that was read is the value of the
bytes that it took. What a run gives is followed the same way, from the parts to
the sequence.
-/

namespace MachineCode.Bytes

/-- The second tape is the first one behind some of its bytes. -/
structure Tape.Took (t t' : Tape) (taken : List UInt8) : Prop where
  rest_eq : t.rest = taken ++ t'.rest
  used_eq : t'.used = t.used + taken.length

namespace Tape.Took

variable {t t₁ t' : Tape} {first second : List UInt8}

theorem refl (t : Tape) : t.Took t [] :=
  ⟨rfl, rfl⟩

theorem trans (h : t.Took t₁ first) (h' : t₁.Took t' second) :
    t.Took t' (first ++ second) where
  rest_eq := by rw [h.rest_eq, h'.rest_eq, List.append_assoc]
  used_eq := by rw [h'.used_eq, h.used_eq, List.length_append, Nat.add_assoc]

theorem cons {s u : Nat} {b : UInt8} {bs taken : List UInt8}
    (h : Tape.Took ⟨s, u + 1, bs⟩ t' taken) : Tape.Took ⟨s, u, b :: bs⟩ t' (b :: taken) where
  rest_eq := congrArg (b :: ·) h.rest_eq
  used_eq := by rw [h.used_eq, List.length_cons, Nat.add_assoc, Nat.add_comm 1]

theorem advance {n : Nat} (h : n ≤ t.rest.length) :
    t.Took (t.advance n) (t.rest.take n) where
  rest_eq := (List.take_append_drop n t.rest).symm
  used_eq := by rw [List.length_take_of_le h, Tape.advance]

/-- What was taken from a tape that was used up is all there was. -/
theorem eq_of_rest_nil (h : t.Took t' first) (hnil : t'.rest = []) : first = t.rest := by
  rw [h.rest_eq, hnil, List.append_nil]

end Tape.Took

namespace Read

variable {α β : Type} {m : Read α} {t t' : Tape}

theorem of_map_ok {g : α → β} {b : β} (h : (g <$> m) t = .ok b t') :
    ∃ a, m t = .ok a t' ∧ g a = b := by
  rw [map_eq_pure_bind] at h
  obtain ⟨a, t₁, hrun, hpure⟩ := of_bind_ok h
  cases hpure
  exact ⟨a, hrun, rfl⟩

theorem of_inOperand_ok {a : α} (h : m.inOperand t = .ok a t') : m t = .ok a t' := by
  cases hrun : m t with
  | ok a₁ t₁ =>
      rw [inOperand_ok hrun] at h
      exact h
  | error e t₁ =>
      rw [inOperand_error hrun] at h
      cases h

theorem exists_of_run' {a : α} (h : EStateM.run' m t = some a) : ∃ t', m t = .ok a t' := by
  delta EStateM.run' EStateM.run at h
  cases hrun : m t with
  | ok b t' =>
      rw [hrun] at h
      cases h
      exact ⟨t', rfl⟩
  | error e t' =>
      rw [hrun] at h
      cases h

theorem byte_took {b : UInt8} (h : Read.byte t = .ok b t') : t.Took t' [b] := by
  cases t with
  | mk start used rest =>
      cases rest with
      | nil => cases h
      | cons c rest =>
          cases h
          exact ⟨rfl, rfl⟩

theorem bytes_took {n : Nat} {taken : List UInt8} (h : Read.bytes n t = .ok taken t') :
    t.Took t' taken ∧ taken.length = n := by
  simp only [Read.bytes] at h
  split at h
  · next hlen =>
      cases h
      rw [List.length_take] at hlen
      exact ⟨.advance (by omega), by rw [List.length_take]; exact hlen⟩
  · cases h

theorem unsigned_took {n : Nat} {value : UInt64} (h : Read.unsigned n t = .ok value t') :
    ∃ taken, t.Took t' taken ∧ taken.length = n ∧ value = unsigned64 taken := by
  obtain ⟨taken, hrun, rfl⟩ := of_map_ok h
  obtain ⟨htook, hlen⟩ := bytes_took hrun
  exact ⟨taken, htook, hlen, rfl⟩

theorem signed_took {n : Nat} {value : Int64} (h : Read.signed n t = .ok value t') :
    ∃ taken, t.Took t' taken ∧ taken.length = n ∧ value = signed64 taken := by
  obtain ⟨taken, hrun, rfl⟩ := of_map_ok h
  obtain ⟨htook, hlen⟩ := bytes_took hrun
  exact ⟨taken, htook, hlen, rfl⟩

/-- Whatever the reader gives has a property. -/
def Gives (m : Read α) (P : α → Prop) : Prop :=
  ∀ t a t', m t = .ok a t' → P a

variable {P : α → Prop} {Q : β → Prop}

theorem Gives.pure {a : α} (h : P a) : Gives (pure a : Read α) P := by
  intro t a' t' hrun
  cases hrun
  exact h

theorem Gives.fail (fault : Fault) : Gives (fail fault : Read α) P := by
  intro t a t' hrun
  cases hrun

theorem Gives.bind {f : α → Read β} (hm : m.Gives P) (hf : ∀ a, P a → (f a).Gives Q) :
    (m >>= f).Gives Q := by
  intro t b t' hrun
  obtain ⟨a, t₁, hfirst, hrest⟩ := of_bind_ok hrun
  exact hf a (hm t a t₁ hfirst) t₁ b t' hrest

/-- What comes after a reader may not depend on what that reader gave. -/
theorem Gives.after {f : α → Read β} (hf : ∀ a, (f a).Gives Q) : (m >>= f).Gives Q :=
  Gives.bind (P := fun _ => True) (fun _ _ _ _ => trivial) fun a _ => hf a

theorem Gives.map {g : α → β} (hm : m.Gives P) (hg : ∀ a, P a → Q (g a)) :
    (g <$> m).Gives Q := by
  intro t b t' hrun
  obtain ⟨a, hfirst, rfl⟩ := of_map_ok hrun
  exact hg a (hm t a t' hfirst)

theorem Gives.inOperand (hm : m.Gives P) : m.inOperand.Gives P :=
  fun t a t' hrun => hm t a t' (of_inOperand_ok hrun)

end Read

end MachineCode.Bytes
