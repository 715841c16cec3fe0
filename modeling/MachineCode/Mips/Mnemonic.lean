import MachineCode.Vocabulary

/-!
# Instruction names of the MIPS family

One constructor per mnemonic, in alphabetical order of the names. Aliases such
as `move`, `b` and `nop` are names of their own. The document identifier runs
the dotted parts of a name together, each with a capital first letter.
-/

namespace MachineCode.Mips

/-- Names of MIPS instructions. -/
inductive Mnemonic where
  | absent | absD | absS | add | addD | addS | addi | addiu | addiupc | addu | aluipc | and | andi
  | aui | auipc | b | bal | balc | bc | bc1eqz | bc1f | bc1fl | bc1nez | bc1t | bc1tl | beq | beqc
  | beql | beqz | beqzalc | beqzc | bgec | bgeuc | bgez | bgezal | bgezalc | bgezall | bgezc |
  bgezl | bgtz | bgtzalc | bgtzc | bgtzl | bitswap | blez | blezalc | blezc | blezl | bltc | bltuc
  | bltz | bltzal | bltzalc | bltzall | bltzc | bltzl | bne | bnec | bnel | bnez | bnezalc | bnezc
  | bnvc | bovc | breakTrap | cEqD | cEqS | cFD | cFS | cLeD | cLeS | cLtD | cLtS | cNgeD | cNgeS
  | cNglD | cNglS | cNgleD | cNgleS | cNgtD | cNgtS | cOleD | cOleS | cOltD | cOltS | cSeqD |
  cSeqS | cSfD | cSfS | cUeqD | cUeqS | cUleD | cUleS | cUltD | cUltS | cUnD | cUnS | cache |
  ceilLD | ceilLS | ceilWD | ceilWS | cfc1 | clo | clz | cmpAfD | cmpAfS | cmpEqD | cmpEqS |
  cmpLeD | cmpLeS | cmpLtD | cmpLtS | cmpUeqD | cmpUeqS | cmpUleD | cmpUleS | cmpUltD | cmpUltS |
  cmpUnD | cmpUnS | ctc1 | cvtDL | cvtDS | cvtDW | cvtLD | cvtLS | cvtSD | cvtSL | cvtSW | cvtWD |
  cvtWS | dadd | daddi | daddiu | daddu | dclo | dclz | ddiv | ddivu | deret | dext | di | dins |
  div | divD | divS | divu | dlsa | dmfc0 | dmfc1 | dmod | dmodu | dmtc0 | dmtc1 | dmuh | dmuhu |
  dmul | dmult | dmultu | dmulu | dnegu | drotr | drotr32 | drotrv | dsbh | dshd | dsll | dsll32 |
  dsllv | dsra | dsra32 | dsrav | dsrl | dsrl32 | dsrlv | dsub | dsubu | ehb | ei | eret | ext |
  floorLD | floorLS | floorWD | floorWS | ins | j | jal | jalr | jialc | jic | jr | lb | lbu | ld
  | ldc1 | ldl | ldr | lh | lhu | ll | lld | lsa | lui | lw | lwc1 | lwl | lwpc | lwr | lwu |
  lwupc | madd | maddu | mfc0 | mfc1 | mfhc1 | mfhi | mflo | mod | modu | movD | movS | move |
  movn | movz | msub | msubu | mtc0 | mtc1 | mthc1 | mthi | mtlo | muh | muhu | mul | mulD | mulS
  | mult | multu | mulu | neg | negD | negS | negu | nop | nor | not | or | ori | pause | pref |
  rdhwr | rotr | rotrv | roundLD | roundLS | roundWD | roundWS | sb | sc | scd | sd | sdbbp | sdc1
  | sdl | sdr | seb | seh | seleqz | selnez | sh | sll | sllv | slt | slti | sltiu | sltu | sqrtD
  | sqrtS | sra | srav | srl | srlv | ssnop | sub | subD | subS | subu | sw | swc1 | swl | swr |
  sync | synci | syscall | teq | teqi | tge | tgei | tgeiu | tgeu | tlbp | tlbr | tlbwi | tlbwr |
  tlt | tlti | tltiu | tltu | tne | tnei | truncLD | truncLS | truncWD | truncWS | wait | wsbh |
  xor | xori
deriving DecidableEq

namespace Mnemonic

/-- Display names, in the order of the constructors. -/
def names : Array String := #[
  "", "abs.d", "abs.s", "add", "add.d", "add.s", "addi", "addiu", "addiupc", "addu", "aluipc",
  "and", "andi", "aui", "auipc", "b", "bal", "balc", "bc", "bc1eqz", "bc1f", "bc1fl", "bc1nez",
  "bc1t", "bc1tl", "beq", "beqc", "beql", "beqz", "beqzalc", "beqzc", "bgec", "bgeuc", "bgez",
  "bgezal", "bgezalc", "bgezall", "bgezc", "bgezl", "bgtz", "bgtzalc", "bgtzc", "bgtzl",
  "bitswap", "blez", "blezalc", "blezc", "blezl", "bltc", "bltuc", "bltz", "bltzal", "bltzalc",
  "bltzall", "bltzc", "bltzl", "bne", "bnec", "bnel", "bnez", "bnezalc", "bnezc", "bnvc", "bovc",
  "break", "c.eq.d", "c.eq.s", "c.f.d", "c.f.s", "c.le.d", "c.le.s", "c.lt.d", "c.lt.s",
  "c.nge.d", "c.nge.s", "c.ngl.d", "c.ngl.s", "c.ngle.d", "c.ngle.s", "c.ngt.d", "c.ngt.s",
  "c.ole.d", "c.ole.s", "c.olt.d", "c.olt.s", "c.seq.d", "c.seq.s", "c.sf.d", "c.sf.s", "c.ueq.d",
  "c.ueq.s", "c.ule.d", "c.ule.s", "c.ult.d", "c.ult.s", "c.un.d", "c.un.s", "cache", "ceil.l.d",
  "ceil.l.s", "ceil.w.d", "ceil.w.s", "cfc1", "clo", "clz", "cmp.af.d", "cmp.af.s", "cmp.eq.d",
  "cmp.eq.s", "cmp.le.d", "cmp.le.s", "cmp.lt.d", "cmp.lt.s", "cmp.ueq.d", "cmp.ueq.s",
  "cmp.ule.d", "cmp.ule.s", "cmp.ult.d", "cmp.ult.s", "cmp.un.d", "cmp.un.s", "ctc1", "cvt.d.l",
  "cvt.d.s", "cvt.d.w", "cvt.l.d", "cvt.l.s", "cvt.s.d", "cvt.s.l", "cvt.s.w", "cvt.w.d",
  "cvt.w.s", "dadd", "daddi", "daddiu", "daddu", "dclo", "dclz", "ddiv", "ddivu", "deret", "dext",
  "di", "dins", "div", "div.d", "div.s", "divu", "dlsa", "dmfc0", "dmfc1", "dmod", "dmodu",
  "dmtc0", "dmtc1", "dmuh", "dmuhu", "dmul", "dmult", "dmultu", "dmulu", "dnegu", "drotr",
  "drotr32", "drotrv", "dsbh", "dshd", "dsll", "dsll32", "dsllv", "dsra", "dsra32", "dsrav",
  "dsrl", "dsrl32", "dsrlv", "dsub", "dsubu", "ehb", "ei", "eret", "ext", "floor.l.d",
  "floor.l.s", "floor.w.d", "floor.w.s", "ins", "j", "jal", "jalr", "jialc", "jic", "jr", "lb",
  "lbu", "ld", "ldc1", "ldl", "ldr", "lh", "lhu", "ll", "lld", "lsa", "lui", "lw", "lwc1", "lwl",
  "lwpc", "lwr", "lwu", "lwupc", "madd", "maddu", "mfc0", "mfc1", "mfhc1", "mfhi", "mflo", "mod",
  "modu", "mov.d", "mov.s", "move", "movn", "movz", "msub", "msubu", "mtc0", "mtc1", "mthc1",
  "mthi", "mtlo", "muh", "muhu", "mul", "mul.d", "mul.s", "mult", "multu", "mulu", "neg", "neg.d",
  "neg.s", "negu", "nop", "nor", "not", "or", "ori", "pause", "pref", "rdhwr", "rotr", "rotrv",
  "round.l.d", "round.l.s", "round.w.d", "round.w.s", "sb", "sc", "scd", "sd", "sdbbp", "sdc1",
  "sdl", "sdr", "seb", "seh", "seleqz", "selnez", "sh", "sll", "sllv", "slt", "slti", "sltiu",
  "sltu", "sqrt.d", "sqrt.s", "sra", "srav", "srl", "srlv", "ssnop", "sub", "sub.d", "sub.s",
  "subu", "sw", "swc1", "swl", "swr", "sync", "synci", "syscall", "teq", "teqi", "tge", "tgei",
  "tgeiu", "tgeu", "tlbp", "tlbr", "tlbwi", "tlbwr", "tlt", "tlti", "tltiu", "tltu", "tne",
  "tnei", "trunc.l.d", "trunc.l.s", "trunc.w.d", "trunc.w.s", "wait", "wsbh", "xor", "xori"]

instance : Vocabulary Mnemonic where
  absent := .absent
  all := (List.range 319).map fun i => Mnemonic.ofNat (i + 1)
  name m := names.getD m.ctorIdx ""
  tag m := if m = .absent then "Invalid" else camel (· == '.') (names.getD m.ctorIdx "")

end Mnemonic

end MachineCode.Mips
