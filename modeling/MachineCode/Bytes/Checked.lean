/-!
# Words that do not wrap

Distances in a buffer come as 64-bit words, and arithmetic on them is checked. A
step whose outcome is not a word gives nothing, and there the program stops.
-/

namespace MachineCode.Bytes

/-- A sum of words, if it fits. -/
def add? (a b : UInt64) : Option UInt64 :=
  if a.toNat + b.toNat < UInt64.size then some (a + b) else none

/-- A difference of words, if it is not negative. -/
def sub? (a b : UInt64) : Option UInt64 :=
  if b.toNat ≤ a.toNat then some (a - b) else none

/-- A product of words, if it fits. -/
def mul? (a b : UInt64) : Option UInt64 :=
  if a.toNat * b.toNat < UInt64.size then some (a * b) else none

/-- A word shifted left by an amount below its width. -/
def shiftLeft? (a b : UInt64) : Option UInt64 :=
  if b.toNat < 64 then some (a <<< b) else none

/-- A word shifted right by an amount below its width. -/
def shiftRight? (a b : UInt64) : Option UInt64 :=
  if b.toNat < 64 then some (a >>> b) else none

variable {a b : UInt64}

theorem toNat_add_of_lt (h : a.toNat + b.toNat < UInt64.size) :
    (a + b).toNat = a.toNat + b.toNat := by
  rw [UInt64.toNat_add]
  exact Nat.mod_eq_of_lt h

theorem add?_of_lt (h : a.toNat + b.toNat < UInt64.size) : add? a b = some (a + b) :=
  if_pos h

theorem add?_of_le (h : UInt64.size ≤ a.toNat + b.toNat) : add? a b = none :=
  if_neg (Nat.not_lt.mpr h)

theorem sub?_of_le (h : b.toNat ≤ a.toNat) : sub? a b = some (a - b) :=
  if_pos h

theorem mul?_of_lt (h : a.toNat * b.toNat < UInt64.size) : mul? a b = some (a * b) :=
  if_pos h

theorem shiftLeft?_of_lt (h : b.toNat < 64) : shiftLeft? a b = some (a <<< b) :=
  if_pos h

theorem shiftRight?_of_lt (h : b.toNat < 64) : shiftRight? a b = some (a >>> b) :=
  if_pos h

end MachineCode.Bytes
