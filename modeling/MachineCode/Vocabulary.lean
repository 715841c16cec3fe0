/-!
# Closed vocabularies

Registers, mnemonics, groups and compare predicates are closed sets of
identifiers. Each has a fixed order, a display name per member, and one extra
member that stands for "nothing here" and displays as the empty text. A
`Vocabulary` bundles these, together with the identifier a member carries in
structured documents, so that look-up by name and by identifier is written once.
-/

namespace MachineCode

/-- A closed set of identifiers with display names. -/
class Vocabulary (α : Type) where
  /-- The member that means "nothing here". -/
  absent : α
  /-- Every other member, in order. -/
  all : List α
  /-- Display name; empty for the absent member. -/
  name : α → String
  /-- Identifier used in structured documents. -/
  tag : α → String

namespace Vocabulary

variable {α : Type} [Vocabulary α]

/-- Whether a member is one of those listed, rather than the absent one. -/
def present [DecidableEq α] (a : α) : Bool :=
  decide (a ≠ absent)

/-- The member with this display name. The absent member has no name to find. -/
def ofName? (s : String) : Option α :=
  all.find? fun a => name a == s

/-- The member with this document identifier, the absent one included. -/
def ofTag? (s : String) : Option α :=
  (absent :: all).find? fun a => tag a == s

/-- Position of the member with this display name. -/
def position? (α : Type) [Vocabulary α] (s : String) : Option Nat :=
  (all (α := α)).findIdx? fun a => name a == s

end Vocabulary

/-- A word and a number behind it. -/
def numbered (word : String) (n : Nat) : String :=
  word ++ String.ofList (Nat.toDigits 10 n)

/-- All bit vectors of a width, by increasing value. -/
def bitVectors (w : Nat) : List (BitVec w) :=
  (List.range (1 <<< w)).map (BitVec.ofNat w)

/-- The name with its first letter in upper case. -/
def capitalize (s : String) : String :=
  match s.toList with
  | [] => ""
  | c :: cs => String.ofList (c.toUpper :: cs)

/-- The parts of a name between separators, each capitalized, run together. -/
def camel (isSeparator : Char → Bool) (s : String) : String :=
  go true s.toList ""
where
  go (start : Bool) : List Char → String → String
    | [], out => out
    | c :: cs, out =>
      if isSeparator c then go true cs out
      else go false cs (out.push (if start then c.toUpper else c))

end MachineCode
