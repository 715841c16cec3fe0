import MachineCode.Vocabulary

/-!
# Instruction groups

The semantic categories attached to a decoded instruction: what it does to the
flow of control, which feature set it belongs to, and in which modes it exists.
-/

namespace MachineCode

/-- Semantic categories of instructions. -/
inductive Group where
  | absent | jump | call | ret | int | iret | privilege | branchRelative | vm | fpu | mmx | sse1 |
  sse2 | sse3 | ssse3 | sse41 | sse42 | aes | pclmul | avx | avx2 | avx512 | fma | fma4 | xop |
  bmi | bmi2 | adx | rtm | cmov | mode64 | not64BitMode | mips32 | mips64 | mips32r2 | mips32r6 |
  notMips32r6 | mips64r2 | bitCount | stdenc | fp64Bit | gp64Bit
deriving DecidableEq

namespace Group

/-- Display names, in the order of the constructors. -/
def names : Array String := #[
  "", "jump", "call", "ret", "int", "iret", "privilege", "branch_relative", "vm", "fpu", "mmx",
  "sse1", "sse2", "sse3", "ssse3", "sse41", "sse42", "aes", "pclmul", "avx", "avx2", "avx512",
  "fma", "fma4", "xop", "bmi", "bmi2", "adx", "rtm", "cmov", "mode64", "not64bitmode", "mips32",
  "mips64", "mips32r2", "mips32r6", "notmips32r6", "mips64r2", "bitcount", "stdenc", "fp64bit",
  "gp64bit"]

/-- Document identifiers: the parts of the name capitalized, with inner capitals where the name
runs several words together. -/
def tagOf : Group → String
  | .absent => "Invalid"
  | .not64BitMode => "Not64BitMode"
  | .notMips32r6 => "NotMips32r6"
  | .bitCount => "BitCount"
  | .fp64Bit => "Fp64Bit"
  | .gp64Bit => "Gp64Bit"
  | g => camel (· == '_') (names.getD g.ctorIdx "")

instance : Vocabulary Group where
  absent := .absent
  all := (List.range 41).map fun i => Group.ofNat (i + 1)
  name m := names.getD m.ctorIdx ""
  tag m := tagOf m

end Group

end MachineCode
