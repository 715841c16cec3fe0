import MachineCode.Distinct
import Mathlib.Data.List.Basic
import Mathlib.Data.List.Induction

/-!
# Order of first occurrence

A list without repetitions is collected from the left, and an element that is
listed already leaves it as it is. So one more element at the end of the input is
one more element at the end of the result, or none, and every fact about the
result is an induction from that end.
-/

namespace MachineCode

variable {α : Type} [DecidableEq α] {xs : List α} {a : α}

theorem appendNew_of_mem (ha : a ∈ xs) : appendNew xs a = xs :=
  if_pos (List.contains_iff_mem.mpr ha)

theorem appendNew_of_not_mem (ha : a ∉ xs) : appendNew xs a = xs ++ [a] :=
  if_neg fun h => ha (List.contains_iff_mem.mp h)

theorem distinct_concat (xs : List α) (a : α) :
    distinct (xs ++ [a]) = appendNew (distinct xs) a :=
  List.foldl_append

/-- Nothing is lost, and nothing is added. -/
theorem mem_distinct : a ∈ distinct xs ↔ a ∈ xs := by
  induction xs using List.reverseRecOn with
  | nil => exact Iff.rfl
  | append_singleton xs b ih =>
      rw [distinct_concat, List.mem_append, List.mem_singleton, ← ih]
      by_cases hb : b ∈ distinct xs
      · rw [appendNew_of_mem hb]
        refine ⟨.inl, ?_⟩
        rintro (ha | rfl)
        · exact ha
        · exact hb
      · rw [appendNew_of_not_mem hb, List.mem_append, List.mem_singleton]

/-- Of the elements that are kept, those come first whose first occurrence does. -/
theorem pairwise_distinct_filter (keep : α → Bool) (xs : List α) :
    (distinct (xs.filter keep)).Pairwise fun a b => xs.idxOf a < xs.idxOf b := by
  induction xs using List.reverseRecOn with
  | nil => exact .nil
  | append_singleton xs c ih =>
      have hmem {a : α} (ha : a ∈ distinct (xs.filter keep)) : a ∈ xs :=
        (List.mem_filter.mp (mem_distinct.mp ha)).1
      -- an element at the end does not move those in front of it
      have hold : (distinct (xs.filter keep)).Pairwise
          fun a b => (xs ++ [c]).idxOf a < (xs ++ [c]).idxOf b := by
        refine ih.imp_of_mem fun ha hb hlt => ?_
        rwa [List.idxOf_append_of_mem (hmem ha), List.idxOf_append_of_mem (hmem hb)]
      rw [List.filter_append]
      by_cases hc : keep c = true
      · rw [List.filter_cons_of_pos hc, List.filter_nil, distinct_concat]
        by_cases hlisted : c ∈ distinct (xs.filter keep)
        · rwa [appendNew_of_mem hlisted]
        · rw [appendNew_of_not_mem hlisted, List.pairwise_append]
          refine ⟨hold, List.pairwise_singleton _ _, fun a ha b hb => ?_⟩
          cases List.mem_singleton.mp hb
          have hnew : c ∉ xs := fun h =>
            hlisted (mem_distinct.mpr (List.mem_filter.mpr ⟨h, hc⟩))
          rw [List.idxOf_append_of_mem (hmem ha), List.idxOf_append_of_notMem hnew]
          exact Nat.lt_add_right _ (List.idxOf_lt_length_of_mem (hmem ha))
      · rwa [List.filter_cons_of_neg hc, List.filter_nil, List.append_nil]

theorem nodup_distinct (xs : List α) : (distinct xs).Nodup := by
  have horder := pairwise_distinct_filter (fun _ => true) xs
  rw [List.filter_true] at horder
  refine horder.imp fun hlt heq => ?_
  rw [heq] at hlt
  exact Nat.lt_irrefl _ hlt

end MachineCode
