/-!
# Lists without repetition

Groups and registers are listed in the order in which they first occur, each
once.
-/

namespace MachineCode

variable {α : Type} [DecidableEq α]

/-- Appends an element unless it is already listed. -/
def appendNew (xs : List α) (a : α) : List α :=
  if xs.contains a then xs else xs ++ [a]

/-- The elements of a list in order of first occurrence. -/
def distinct (xs : List α) : List α :=
  xs.foldl appendNew []

end MachineCode
