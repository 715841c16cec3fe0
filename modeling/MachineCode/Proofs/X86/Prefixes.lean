import MachineCode.Proofs.X86.FrameBytes

/-!
# Runs of prefix bytes

The scan of a head takes prefix bytes one after the other, so a whole run of them
can be skipped at once: what is read behind it is read with the prefixes that the
run amounts to. A run that is too long is refused whatever stands behind it, and
always with the same count, because the scan stops at the first byte too many.
-/

namespace MachineCode.X86

open Bytes Read

variable {mode : Width} {p q : Prefixes} {run : List UInt8}

theorem foldlM_add?_count (hrun : run.foldlM (Prefixes.add? mode) p = some q) :
    q.count = p.count + run.length := by
  induction run generalizing p with
  | nil =>
      cases hrun
      rfl
  | cons b bs ih =>
      rw [List.foldlM_cons] at hrun
      obtain ⟨p', hadd, hrest⟩ := Option.bind_eq_some_iff.mp hrun
      rw [ih hrest, Prefixes.add?_count hadd, List.length_cons]
      omega

theorem collect_run (hrun : run.foldlM (Prefixes.add? mode) p = some q)
    (hcount : q.count ≤ Prefixes.maxCount) (s u : Nat) (rest : List UInt8) :
    Scan.collect mode p s u (run ++ rest) = Scan.collect mode q s (u + run.length) rest := by
  induction run generalizing p u with
  | nil =>
      cases hrun
      rfl
  | cons b bs ih =>
      rw [List.foldlM_cons] at hrun
      obtain ⟨p', hadd, hrest⟩ := Option.bind_eq_some_iff.mp hrun
      have hle := foldlM_add?_count hrest
      have hnot : ¬p'.count > Prefixes.maxCount := by omega
      rw [List.cons_append, Scan.collect]
      simp only [hadd, if_neg hnot]
      rw [ih hrest, List.length_cons, Nat.add_right_comm, Nat.add_assoc]

theorem readHeadFrom_run (hrun : run.foldlM (Prefixes.add? mode) p = some q)
    (hcount : q.count ≤ Prefixes.maxCount) (s u : Nat) (rest : List UInt8) :
    readHeadFrom mode p ⟨s, u, run ++ rest⟩ =
      readHeadFrom mode q ⟨s, u + run.length, rest⟩ := by
  simp only [readHeadFrom, collect_run hrun hcount]

theorem readHeadFrom_run_excessive (hrun : run.foldlM (Prefixes.add? mode) p = some q)
    (hp : p.count ≤ Prefixes.maxCount) (hcount : Prefixes.maxCount < q.count) (s u : Nat)
    (rest : List UInt8) :
    ∃ t, readHeadFrom mode p ⟨s, u, run ++ rest⟩ =
      .error ⟨s, .excessivePrefixes (Prefixes.maxCount + 1)⟩ t := by
  induction run generalizing p u with
  | nil =>
      cases hrun
      omega
  | cons b bs ih =>
      rw [List.foldlM_cons] at hrun
      obtain ⟨p', hadd, hrest⟩ := Option.bind_eq_some_iff.mp hrun
      have hstep := Prefixes.add?_count hadd
      rw [List.cons_append]
      by_cases hp' : p'.count > Prefixes.maxCount
      · have hfirst : p'.count = Prefixes.maxCount + 1 := by omega
        rw [readHeadFrom_excessive hadd hp', hfirst]
        exact ⟨_, rfl⟩
      · rw [readHeadFrom_add hadd hp']
        exact ih hrest (Nat.le_of_not_lt hp') _

end MachineCode.X86
