import MachineCode.Specificity

/-!
# The only most specific choice

A choice of the most specific element keeps the first one where two tie. If no
two elements that apply are equally specific, nothing is left to the order: the
choice is the one element that is more specific than every other that applies,
and it is the same for every arrangement of the list.

That no two rows of a table tie is a fact about pairs. Most pairs differ in a
key that both would have to share with the input, so a table is first divided by
its key, a bit at a time, and only rows with one key are compared.
-/

namespace MachineCode

variable {α : Type} {specificity : α → Nat} {applies : α → Bool} {xs ys : List α} {a b : α}

/-- The element applies, and every other element that applies is less specific. -/
def IsOnlyMostSpecific (specificity : α → Nat) (applies : α → Bool) (xs : List α) (a : α) :
    Prop :=
  applies a = true ∧ ∃ before after, xs = before ++ a :: after ∧
    ∀ b ∈ before ++ after, applies b = true → specificity b < specificity a

/-- No two elements that apply are equally specific. -/
def TieFree (specificity : α → Nat) (applies : α → Bool) (xs : List α) : Prop :=
  xs.Pairwise fun a b => applies a = true → applies b = true → specificity a ≠ specificity b

theorem foldl_moreSpecific_le {best : Option α}
    (h : xs.foldl (moreSpecific specificity) best = some a) :
    (∀ b ∈ xs, specificity b ≤ specificity a) ∧
      ∀ b, best = some b → specificity b ≤ specificity a := by
  induction xs generalizing best with
  | nil =>
      refine ⟨fun _ hmem => (nomatch hmem), fun b hb => ?_⟩
      cases hb.symm.trans h
      exact Nat.le_refl _
  | cons x xs ih =>
      rw [List.foldl_cons] at h
      obtain ⟨hmem, hbest⟩ := ih h
      cases best with
      | none =>
          refine ⟨fun b hb => ?_, fun _ hb => (nomatch hb)⟩
          rcases List.mem_cons.mp hb with rfl | hb
          · exact hbest b rfl
          · exact hmem b hb
      | some c =>
          -- whichever of the two is kept is no worse than either
          have hkept : specificity c ≤ specificity a ∧ specificity x ≤ specificity a := by
            simp only [moreSpecific] at hbest
            split at hbest
            · next hlt =>
                have hx := hbest x rfl
                exact ⟨by omega, hx⟩
            · next hle =>
                have hc := hbest c rfl
                exact ⟨hc, by omega⟩
          refine ⟨fun b hb => ?_, fun b hb => ?_⟩
          · rcases List.mem_cons.mp hb with rfl | hb
            · exact hkept.2
            · exact hmem b hb
          · cases hb
            exact hkept.1

/-- No candidate is more specific than the choice. -/
theorem mostSpecific_le (h : mostSpecific specificity xs = some a) (hb : b ∈ xs) :
    specificity b ≤ specificity a :=
  (foldl_moreSpecific_le h).1 b hb

theorem exists_mostSpecific (specificity : α → Nat) (ha : a ∈ xs) :
    ∃ b, mostSpecific specificity xs = some b := by
  cases h : mostSpecific specificity xs with
  | some b => exact ⟨b, rfl⟩
  | none =>
      rw [mostSpecific_eq_none h] at ha
      cases ha

theorem mostSpecific_map {β : Type} (specificity : β → Nat) (f : α → β) (xs : List α) :
    mostSpecific specificity (xs.map f) = (mostSpecific (specificity ∘ f) xs).map f := by
  rw [mostSpecific, List.foldl_map]
  show xs.foldl _ (none.map f) = _
  refine List.foldl_hom (Option.map f) fun best a => ?_
  cases best with
  | none => rfl
  | some b =>
      simp only [Option.map_some, moreSpecific, Function.comp_apply]
      split <;> rfl

/-- Among elements without ties, the choice is the only most specific one. -/
theorem mostSpecific_filter_eq_some_iff (hfree : TieFree specificity applies xs) :
    mostSpecific specificity (xs.filter applies) = some a ↔
      IsOnlyMostSpecific specificity applies xs a := by
  constructor
  · intro h
    obtain ⟨hmem, happlies⟩ := List.mem_filter.mp (mostSpecific_mem h)
    obtain ⟨before, after, rfl⟩ := List.append_of_mem hmem
    refine ⟨happlies, before, after, rfl, fun b hb hbapplies => ?_⟩
    rw [TieFree, List.pairwise_append, List.pairwise_cons] at hfree
    have hin : b ∈ (before ++ a :: after).filter applies := by
      refine List.mem_filter.mpr ⟨?_, hbapplies⟩
      rcases List.mem_append.mp hb with hb | hb
      · exact List.mem_append_left _ hb
      · exact List.mem_append_right _ (List.mem_cons_of_mem a hb)
    have hne : specificity b ≠ specificity a := by
      rcases List.mem_append.mp hb with hb | hb
      · exact hfree.2.2 b hb a List.mem_cons_self hbapplies happlies
      · exact (hfree.2.1.1 b hb happlies hbapplies).symm
    exact Nat.lt_of_le_of_ne (mostSpecific_le h hin) hne
  · rintro ⟨happlies, before, after, rfl, hless⟩
    have ha : a ∈ (before ++ a :: after).filter applies :=
      List.mem_filter.mpr ⟨List.mem_append_right _ List.mem_cons_self, happlies⟩
    obtain ⟨b, hb⟩ := exists_mostSpecific specificity ha
    obtain ⟨hbmem, hbapplies⟩ := List.mem_filter.mp (mostSpecific_mem hb)
    have hle := mostSpecific_le hb ha
    rcases List.mem_append.mp hbmem with hbefore | hbafter
    · have hlt := hless b (List.mem_append_left _ hbefore) hbapplies
      omega
    · rcases List.mem_cons.mp hbafter with rfl | hbafter
      · exact hb
      · have hlt := hless b (List.mem_append_right _ hbafter) hbapplies
        omega

/-- Among elements without ties, there is no choice only if no element applies. -/
theorem mostSpecific_filter_eq_none_iff (hfree : TieFree specificity applies xs) :
    mostSpecific specificity (xs.filter applies) = none ↔
      ¬∃ a, IsOnlyMostSpecific specificity applies xs a := by
  constructor
  · rintro h ⟨a, ha⟩
    rw [(mostSpecific_filter_eq_some_iff hfree).mpr ha] at h
    cases h
  · intro h
    cases hc : mostSpecific specificity (xs.filter applies) with
    | none => rfl
    | some a => exact absurd ⟨a, (mostSpecific_filter_eq_some_iff hfree).mp hc⟩ h

theorem TieFree.perm (hperm : xs.Perm ys) (hfree : TieFree specificity applies xs) :
    TieFree specificity applies ys :=
  List.Pairwise.perm hfree hperm fun h hb ha => (h ha hb).symm

/-- Rearranging elements without ties does not change the choice. -/
theorem mostSpecific_filter_perm (hfree : TieFree specificity applies xs) (hperm : xs.Perm ys) :
    mostSpecific specificity (ys.filter applies) =
      mostSpecific specificity (xs.filter applies) := by
  have hmem : ∀ a, a ∈ ys.filter applies ↔ a ∈ xs.filter applies :=
    fun a => (hperm.filter applies).mem_iff.symm
  cases hx : mostSpecific specificity (xs.filter applies) with
  | none =>
      have hnil : xs.filter applies = [] := mostSpecific_eq_none hx
      have hnil' : ys.filter applies = [] := by
        refine List.eq_nil_iff_forall_not_mem.mpr fun a ha => ?_
        rw [hmem, hnil] at ha
        cases ha
      rw [hnil']
      rfl
  | some a =>
      rw [mostSpecific_filter_eq_some_iff (hfree.perm hperm)]
      obtain ⟨happlies, before, after, hxs, hless⟩ := (mostSpecific_filter_eq_some_iff hfree).mp hx
      have ha : a ∈ ys := hperm.mem_iff.mp (hxs ▸ List.mem_append_right _ List.mem_cons_self)
      obtain ⟨before', after', rfl⟩ := List.append_of_mem ha
      rw [hxs] at hperm
      -- the other elements are rearranged too
      have hothers : (before ++ after).Perm (before' ++ after') :=
        (List.perm_middle.symm.trans (hperm.trans List.perm_middle)).cons_inv
      exact ⟨happlies, before', after', rfl, fun b hb => hless b (hothers.mem_iff.mpr hb)⟩

/-- Whether every two elements, in their order, pass a check. -/
def allPairs (check : α → α → Bool) : List α → Bool
  | [] => true
  | x :: xs => xs.all (check x) && allPairs check xs

/-- Whether every two elements pass a check that agree in the low `bits` bits of their keys. -/
def allPairsByKey (key : α → Nat) (check : α → α → Bool) : Nat → List α → Bool
  | 0, xs => allPairs check xs
  | bits + 1, xs =>
    allPairsByKey key check bits (xs.filter fun x => (key x).testBit bits) &&
      allPairsByKey key check bits (xs.filter fun x => !(key x).testBit bits)

variable {key : α → Nat} {check : α → α → Bool}

theorem pairwise_of_allPairs (h : allPairs check xs = true) :
    xs.Pairwise fun a b => check a b = true := by
  induction xs with
  | nil => exact .nil
  | cons x xs ih =>
      rw [allPairs, Bool.and_eq_true] at h
      exact .cons (fun b hb => List.all_eq_true.mp h.1 b hb) (ih h.2)

/-- Elements with one key are never parted, so they were compared. -/
theorem pairwise_of_allPairsByKey {bits : Nat} (h : allPairsByKey key check bits xs = true) :
    xs.Pairwise fun a b => key a = key b → check a b = true := by
  induction bits generalizing xs with
  | zero =>
      refine (pairwise_of_allPairs h).imp ?_
      intro a b hcheck _
      exact hcheck
  | succ bits ih =>
      rw [allPairsByKey, Bool.and_eq_true] at h
      have hset := List.pairwise_filter.mp (ih h.1)
      have hclear := List.pairwise_filter.mp (ih h.2)
      refine (hset.and hclear).imp fun {a b} ⟨hs, hc⟩ hkey => ?_
      cases hbit : (key a).testBit bits with
      | true => exact hs hbit (hkey ▸ hbit) hkey
      | false =>
          have hbit' : (!(key a).testBit bits) = true := by rw [hbit]; rfl
          exact hc hbit' (hkey ▸ hbit') hkey

/-- There are no ties if elements that apply together share their key, and no two elements with
one key are equally specific unless they exclude each other. -/
theorem tieFree_of_allPairsByKey {excludes : α → α → Bool} {bits : Nat}
    (hcheck : allPairsByKey key (fun a b => excludes a b || specificity a != specificity b) bits
      xs = true)
    (hkey : ∀ a ∈ xs, ∀ b ∈ xs, applies a = true → applies b = true → key a = key b)
    (hexcludes : ∀ a b, applies a = true → applies b = true → excludes a b = false) :
    TieFree specificity applies xs := by
  refine List.Pairwise.imp_of_mem ?_ (pairwise_of_allPairsByKey hcheck)
  intro a b ha hb hpair happlies happlies'
  have h := hpair (hkey a ha b hb happlies happlies')
  rw [hexcludes a b happlies happlies', Bool.false_or, bne_iff_ne] at h
  exact h

end MachineCode
