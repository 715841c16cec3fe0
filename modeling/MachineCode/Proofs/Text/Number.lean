import MachineCode.Text.Number

/-!
# Numbers read back

Digits are written most significant first, so a number is what its digits without
the last one denote, times the base, and the last digit. Reading is a fold in the
same order. Zeros in front change nothing, which is why padded numbers read back
like any other.
-/

namespace MachineCode.Text

variable {digit? : Char → Option Nat} {base : Nat}

/-- Induction over the digits of a number, most significant first. -/
@[elab_as_elim]
theorem toDigits_induction {motive : Nat → List Char → Prop} (hbase : 1 < base)
    (one : ∀ d < base, motive d [Nat.digitChar d])
    (more : ∀ n d cs, 0 < n → d < base → cs ≠ [] → motive n cs →
      motive (n * base + d) (cs ++ [Nat.digitChar d])) (n : Nat) :
    motive n (Nat.toDigits base n) := by
  induction n using Nat.strongRecOn with
  | ind n ih =>
      rw [Nat.toDigits_eq_if hbase]
      split
      · next hlt => exact one n hlt
      · next hge =>
          have hle : base ≤ n := Nat.le_of_not_lt hge
          have hpos : 0 < n / base := Nat.div_pos hle (by omega)
          have hstep := more (n / base) (n % base) _ hpos (Nat.mod_lt n (by omega))
            Nat.toDigits_ne_nil (ih _ (Nat.div_lt_self (by omega) hbase))
          rwa [Nat.div_add_mod'] at hstep

theorem mem_toDigits (hbase : 1 < base) {n : Nat} {c : Char} (h : c ∈ Nat.toDigits base n) :
    ∃ d < base, c = Nat.digitChar d := by
  induction n using toDigits_induction hbase with
  | one d hd => exact ⟨d, hd, List.mem_singleton.mp h⟩
  | more n d cs _ hd _ ih =>
      rcases List.mem_append.mp h with h | h
      · exact ih h
      · exact ⟨d, hd, List.mem_singleton.mp h⟩

/-- Only zero is written with a zero in front. -/
theorem head?_toDigits_ne_zero (hbase : 1 < base) {n : Nat} (h : 0 < n) :
    (Nat.toDigits base n).head? ≠ some '0' := by
  induction n using toDigits_induction hbase with
  | one d hd =>
      intro hzero
      rw [List.head?_cons, Option.some.injEq, Nat.digitChar_eq_zero] at hzero
      omega
  | more n d cs hn _ hne ih =>
      obtain ⟨c, cs, rfl⟩ := List.exists_cons_of_ne_nil hne
      exact ih hn

theorem digits?_append_singleton (cs : List Char) (c : Char) :
    digits? digit? base (cs ++ [c])
      = (digits? digit? base cs).bind fun m => (digit? c).map (m * base + ·) := by
  rw [digits?, List.foldl_append]
  show ((digits? digit? base cs).bind fun m => (digit? c).bind fun d => some (m * base + d)) = _
  cases digits? digit? base cs <;> cases digit? c <;> rfl

theorem digits?_toDigits (hbase : 1 < base)
    (hdigit : ∀ d < base, digit? (Nat.digitChar d) = some d) (n : Nat) :
    digits? digit? base (Nat.toDigits base n) = some n := by
  induction n using toDigits_induction hbase with
  | one d hd =>
      rw [← List.nil_append [Nat.digitChar d], digits?_append_singleton, hdigit d hd]
      simp [digits?]
  | more n d cs _ hd _ ih =>
      rw [digits?_append_singleton, ih, hdigit d hd]
      rfl

theorem digits?_zeros_append (hzero : digit? '0' = some 0) (k : Nat) (cs : List Char) :
    digits? digit? base (List.replicate k '0' ++ cs) = digits? digit? base cs := by
  induction k with
  | zero => rfl
  | succ k ih =>
      rw [List.replicate_succ, List.cons_append, ← ih, digits?, List.foldl_cons, hzero, digits?]
      simp

theorem hexDigit?_digitChar : ∀ d < 16, hexDigit? (Nat.digitChar d) = some d := by decide

/-- A number is read back from its hexadecimal digits, with any number of zeros in front. -/
theorem hexNumber?_zeros_append_toDigits (k n : Nat) :
    hexNumber? (List.replicate k '0' ++ Nat.toDigits 16 n) = some n := by
  have hne : (List.replicate k '0' ++ Nat.toDigits 16 n).isEmpty = false := by
    rw [List.isEmpty_eq_false_iff]
    exact List.append_ne_nil_of_right_ne_nil _ Nat.toDigits_ne_nil
  rw [hexNumber?, hne, if_neg Bool.false_ne_true,
    digits?_zeros_append (hexDigit?_digitChar 0 (by decide)),
    digits?_toDigits (by decide) hexDigit?_digitChar]

theorem hexNumber?_toDigits (n : Nat) : hexNumber? (Nat.toDigits 16 n) = some n :=
  hexNumber?_zeros_append_toDigits 0 n

theorem hexNumber?_hexPadded (width n : Nat) :
    hexNumber? (hexPadded width n).toList = some n := by
  rw [hexPadded, String.toList_ofList]
  exact hexNumber?_zeros_append_toDigits _ n

theorem length_hexPadded {width n : Nat} (h : (Nat.toDigits 16 n).length ≤ width) :
    (hexPadded width n).toList.length = width := by
  rw [hexPadded, String.toList_ofList, List.length_append, List.length_replicate]
  omega

end MachineCode.Text
