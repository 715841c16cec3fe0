import MachineCode.Vocabulary

/-!
# Compare predicates and rounding modes

Three instruction families take a compare predicate from the low bits of their
trailing immediate byte: three bits in the older vector compares and in the
packed compares of the third family, five bits in the extended vector compares.
The static rounding mode comes from a two-bit field of the encoding.
-/

namespace MachineCode.X86

/-- Predicates of the older vector compares. -/
inductive SseCondition where
  | absent | eq | lt | le | unord | neq | nlt | nle | ord
deriving DecidableEq

namespace SseCondition

/-- Display names, in the order of the constructors. -/
def names : Array String := #[
  "", "eq", "lt", "le", "unord", "neq", "nlt", "nle", "ord"]

instance : Vocabulary SseCondition where
  absent := .absent
  all := (List.range 8).map fun i => SseCondition.ofNat (i + 1)
  name p := names.getD p.ctorIdx ""
  tag p := if p = .absent then "Invalid" else camel (· == '_') (names.getD p.ctorIdx "")

/-- The predicate in the low three bits of an immediate. -/
def ofImmediate (b : UInt8) : SseCondition :=
  .ofNat (b.toNat % 8 + 1)

end SseCondition

/-- Predicates of the extended vector compares. -/
inductive AvxCondition where
  | absent | eq | lt | le | unord | neq | nlt | nle | ord | eqUq | nge | ngt | never | neqOq | ge
  | gt | always | eqOs | ltOq | leOq | unordS | neqUs | nltUq | nleUq | ordS | eqUs | ngeUq |
  ngtUq | neverS | neqOs | geOq | gtOq | alwaysS
deriving DecidableEq

namespace AvxCondition

/-- Display names, in the order of the constructors. -/
def names : Array String := #[
  "", "eq", "lt", "le", "unord", "neq", "nlt", "nle", "ord", "eq_uq", "nge", "ngt", "false",
  "neq_oq", "ge", "gt", "true", "eq_os", "lt_oq", "le_oq", "unord_s", "neq_us", "nlt_uq",
  "nle_uq", "ord_s", "eq_us", "nge_uq", "ngt_uq", "false_os", "neq_os", "ge_oq", "gt_oq",
  "true_us"]

instance : Vocabulary AvxCondition where
  absent := .absent
  all := (List.range 32).map fun i => AvxCondition.ofNat (i + 1)
  name p := names.getD p.ctorIdx ""
  tag p := if p = .absent then "Invalid" else camel (· == '_') (names.getD p.ctorIdx "")

/-- The predicate in the low five bits of an immediate. -/
def ofImmediate (b : UInt8) : AvxCondition :=
  .ofNat (b.toNat % 32 + 1)

end AvxCondition

/-- Predicates of the packed integer compares. -/
inductive XopCondition where
  | absent | lt | le | gt | ge | eq | neq | never | always
deriving DecidableEq

namespace XopCondition

/-- Display names, in the order of the constructors. -/
def names : Array String := #[
  "", "lt", "le", "gt", "ge", "eq", "neq", "false", "true"]

instance : Vocabulary XopCondition where
  absent := .absent
  all := (List.range 8).map fun i => XopCondition.ofNat (i + 1)
  name p := names.getD p.ctorIdx ""
  tag p := if p = .absent then "Invalid" else camel (· == '_') (names.getD p.ctorIdx "")

/-- The predicate in the low three bits of an immediate. -/
def ofImmediate (b : UInt8) : XopCondition :=
  .ofNat (b.toNat % 8 + 1)

end XopCondition

/-- Static rounding modes. -/
inductive RoundingMode where
  | absent | rn | rd | ru | rz
deriving DecidableEq

namespace RoundingMode

/-- Display names, in the order of the constructors. -/
def names : Array String := #[
  "", "rn", "rd", "ru", "rz"]

instance : Vocabulary RoundingMode where
  absent := .absent
  all := (List.range 4).map fun i => RoundingMode.ofNat (i + 1)
  name p := names.getD p.ctorIdx ""
  tag p := if p = .absent then "Invalid" else camel (· == '_') (names.getD p.ctorIdx "")

/-- The mode in the low two bits of the length field. -/
def ofField (b : UInt8) : RoundingMode :=
  .ofNat (b.toNat % 4 + 1)

end RoundingMode

end MachineCode.X86
