import MachineCode.Text.Blank
import MachineCode.Text.Number

/-!
# Flag sets as text

A set of flags is a word, and its text is a list of flag names divided by `|`.
Bits that no name covers are written as one hexadecimal item, so every word has
a text. Reading accepts the items in any order, repeated, with blanks around
them, and takes the union of their bits.
-/

namespace MachineCode.Text

/-- Named bit patterns of a `w`-bit word, in the order in which they are written. -/
abbrev FlagNames (w : Nat) := List (String × BitVec w)

namespace FlagNames

variable {w : Nat}

/-- The items that stand for `bits`: a name is written when all its bits are set and at least
one of them has not been written yet. -/
def items (names : FlagNames w) (bits : BitVec w) : List String :=
  go names bits
where
  go : FlagNames w → BitVec w → List String
    | [], rest => if rest = 0 then [] else [hex0x rest.toNat]
    | (name, flag) :: more, rest =>
      if bits &&& flag = flag ∧ rest &&& flag ≠ 0 then name :: go more (rest &&& ~~~flag)
      else go more rest

/-- The text of a flag set; empty when no bit is set. -/
def print (names : FlagNames w) (bits : BitVec w) : String :=
  " | ".intercalate (names.items bits)

/-- The bits that an item denotes: a name, or `0x` and hexadecimal digits that fit the word. One
plus sign may stand before the digits. -/
def item? (names : FlagNames w) (cs : List Char) : Option (BitVec w) :=
  match cs with
  | [] => none
  | '0' :: 'x' :: digits =>
    let digits := match digits with
      | '+' :: more => more
      | _ => digits
    match hexNumber? digits with
    | some n =>
      let bits := BitVec.ofNat w n
      if bits.toNat = n then some bits else none
    | none => none
  | _ => (names.find? fun entry => entry.1.toList == cs).map (·.2)

/-- The pieces of a text between occurrences of a separator. -/
def pieces (separator : Char) : List Char → List (List Char)
  | [] => [[]]
  | c :: cs =>
    if c = separator then [] :: pieces separator cs
    else match pieces separator cs with
      | [] => [[c]]
      | p :: ps => (c :: p) :: ps

/-- Reads a flag set; blank text is the empty set. -/
def parse? (names : FlagNames w) (s : String) : Option (BitVec w) :=
  let cs := s.toList
  if cs.all isBlank then some 0
  else (pieces '|' cs).foldl
    (fun acc piece => do return (← acc) ||| (← names.item? (trim piece))) (some 0)

end FlagNames

end MachineCode.Text
