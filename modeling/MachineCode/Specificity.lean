/-!
# Most specific choices

Encoding tables hold rows that overlap: an alias fixes more bits than the
general form. Of several rows that apply, the most specific one is meant.
-/

namespace MachineCode

variable {α : Type}

/-- The better of a choice so far and a further candidate; the choice so far if they tie. -/
def moreSpecific (specificity : α → Nat) (best : Option α) (a : α) : Option α :=
  match best with
  | none => some a
  | some b => if specificity b < specificity a then some a else some b

/-- The first element of greatest specificity. -/
def mostSpecific (specificity : α → Nat) (xs : List α) : Option α :=
  xs.foldl (moreSpecific specificity) none

variable {specificity : α → Nat}

@[simp] theorem mostSpecific_nil (specificity : α → Nat) : mostSpecific specificity [] = none :=
  rfl

theorem moreSpecific_mem {best : Option α} {a b : α}
    (h : moreSpecific specificity best a = some b) : b = a ∨ best = some b := by
  rw [moreSpecific.eq_def] at h
  split at h
  · exact .inl (Option.some.inj h).symm
  · split at h
    · exact .inl (Option.some.inj h).symm
    · exact .inr h

theorem moreSpecific_isSome (specificity : α → Nat) (best : Option α) (a : α) :
    (moreSpecific specificity best a).isSome = true := by
  rw [moreSpecific.eq_def]
  split
  · rfl
  · split <;> rfl

theorem foldl_moreSpecific_mem {xs : List α} {best : Option α} {b : α}
    (h : xs.foldl (moreSpecific specificity) best = some b) : b ∈ xs ∨ best = some b := by
  induction xs generalizing best with
  | nil => exact .inr h
  | cons x xs ih =>
      rcases ih h with hmem | hbest
      · exact .inl (List.mem_cons_of_mem x hmem)
      · rcases moreSpecific_mem hbest with rfl | hbest
        · exact .inl List.mem_cons_self
        · exact .inr hbest

/-- A choice is one of the candidates. -/
theorem mostSpecific_mem {xs : List α} {a : α} (h : mostSpecific specificity xs = some a) :
    a ∈ xs := by
  rcases foldl_moreSpecific_mem h with hmem | hnone
  · exact hmem
  · cases hnone

theorem foldl_moreSpecific_isSome (xs : List α) {best : Option α} (h : best.isSome = true) :
    (xs.foldl (moreSpecific specificity) best).isSome = true := by
  induction xs generalizing best with
  | nil => exact h
  | cons x xs ih => exact ih (moreSpecific_isSome specificity best x)

/-- There is a choice unless there is no candidate. -/
theorem mostSpecific_eq_none {xs : List α} (h : mostSpecific specificity xs = none) :
    xs = [] := by
  cases xs with
  | nil => rfl
  | cons x xs =>
      have hsome : (xs.foldl (moreSpecific specificity) (moreSpecific specificity none x)).isSome =
          true := foldl_moreSpecific_isSome xs (moreSpecific_isSome specificity none x)
      rw [mostSpecific, List.foldl_cons] at h
      rw [h] at hsome
      cases hsome

end MachineCode
