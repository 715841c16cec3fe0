import MachineCode.Text.FlagSet

/-!
# Effects on the flags register

How an instruction treats each bit of the flags register: it may compute it,
restore a saved value, force it to zero or one, test it, or leave it undefined.
An effect set is a 64-bit word with one bit per effect; the families of
instructions share a few common sets.
-/

namespace MachineCode.X86

/-- A set of effects on the flags register. -/
structure FlagEffects where
  bits : BitVec 64 := 0
deriving DecidableEq

namespace FlagEffects

/-- Names of the effects from the lowest bit up, in full and in short. -/
def effectNames : List (String × String) := [
  ("MODIFY_AF", "MOD_AF"), ("MODIFY_CF", "MOD_CF"), ("MODIFY_SF", "MOD_SF"),
  ("MODIFY_ZF", "MOD_ZF"), ("MODIFY_PF", "MOD_PF"), ("MODIFY_OF", "MOD_OF"),
  ("MODIFY_TF", "MOD_TF"), ("MODIFY_IF", "MOD_IF"), ("MODIFY_DF", "MOD_DF"),
  ("MODIFY_NT", "MOD_NT"), ("MODIFY_RF", "MOD_RF"), ("PRIOR_OF", "PRIOR_OF"),
  ("PRIOR_SF", "PRIOR_SF"), ("PRIOR_ZF", "PRIOR_ZF"), ("PRIOR_AF", "PRIOR_AF"),
  ("PRIOR_PF", "PRIOR_PF"), ("PRIOR_CF", "PRIOR_CF"), ("PRIOR_TF", "PRIOR_TF"),
  ("PRIOR_IF", "PRIOR_IF"), ("PRIOR_DF", "PRIOR_DF"), ("PRIOR_NT", "PRIOR_NT"),
  ("RESET_OF", "RESET_OF"), ("RESET_CF", "RESET_CF"), ("RESET_DF", "RESET_DF"),
  ("RESET_IF", "RESET_IF"), ("RESET_SF", "RESET_SF"), ("RESET_AF", "RESET_AF"),
  ("RESET_TF", "RESET_TF"), ("RESET_NT", "RESET_NT"), ("RESET_PF", "RESET_PF"),
  ("SET_CF", "SET_CF"), ("SET_DF", "SET_DF"), ("SET_IF", "SET_IF"), ("TEST_OF", "TEST_OF"),
  ("TEST_SF", "TEST_SF"), ("TEST_ZF", "TEST_ZF"), ("TEST_PF", "TEST_PF"), ("TEST_CF", "TEST_CF"),
  ("TEST_NT", "TEST_NT"), ("TEST_DF", "TEST_DF"), ("UNDEFINED_OF", "UNDEF_OF"),
  ("UNDEFINED_SF", "UNDEF_SF"), ("UNDEFINED_ZF", "UNDEF_ZF"), ("UNDEFINED_PF", "UNDEF_PF"),
  ("UNDEFINED_AF", "UNDEF_AF"), ("UNDEFINED_CF", "UNDEF_CF")]

/-- The bit of the effect with a number. -/
def bit (i : Nat) : BitVec 64 :=
  BitVec.twoPow 64 i

/-- Flag names of an effect set. -/
def flagNames : Text.FlagNames 64 :=
  effectNames.zipIdx.map fun (names, i) => (names.1, bit i)

/-- The flag text. -/
def text (e : FlagEffects) : String :=
  flagNames.print e.bits

/-- Reads a flag text. -/
def ofText? (s : String) : Option FlagEffects :=
  (flagNames.parse? s).map FlagEffects.mk

/-- Short names of the effects in a set, lowest bit first. -/
def shortNames (e : FlagEffects) : List String :=
  effectNames.zipIdx.filterMap fun (names, i) => if e.bits.getLsbD i then some names.2 else none

/-- The short name of a single effect; empty for no effect, for several, and for unknown bits. -/
def shortName (e : FlagEffects) : String :=
  match effectNames.zipIdx.find? fun (_, i) => e.bits == bit i with
  | some (names, _) => names.2
  | none => ""

def modifyAf : BitVec 64 := bit 0
def modifyCf : BitVec 64 := bit 1
def modifySf : BitVec 64 := bit 2
def modifyZf : BitVec 64 := bit 3
def modifyPf : BitVec 64 := bit 4
def modifyOf : BitVec 64 := bit 5
def modifyRf : BitVec 64 := bit 10
def priorOf : BitVec 64 := bit 11
def priorSf : BitVec 64 := bit 12
def priorZf : BitVec 64 := bit 13
def priorAf : BitVec 64 := bit 14
def priorPf : BitVec 64 := bit 15
def priorCf : BitVec 64 := bit 16
def priorTf : BitVec 64 := bit 17
def priorIf : BitVec 64 := bit 18
def priorDf : BitVec 64 := bit 19
def priorNt : BitVec 64 := bit 20
def resetOf : BitVec 64 := bit 21
def resetCf : BitVec 64 := bit 22
def resetDf : BitVec 64 := bit 23
def resetIf : BitVec 64 := bit 24
def resetSf : BitVec 64 := bit 25
def resetAf : BitVec 64 := bit 26
def resetTf : BitVec 64 := bit 27
def resetNt : BitVec 64 := bit 28
def resetPf : BitVec 64 := bit 29
def setCf : BitVec 64 := bit 30
def setDf : BitVec 64 := bit 31
def setIf : BitVec 64 := bit 32
def testOf : BitVec 64 := bit 33
def testSf : BitVec 64 := bit 34
def testZf : BitVec 64 := bit 35
def testPf : BitVec 64 := bit 36
def testCf : BitVec 64 := bit 37
def testNt : BitVec 64 := bit 38
def testDf : BitVec 64 := bit 39
def undefinedOf : BitVec 64 := bit 40
def undefinedSf : BitVec 64 := bit 41
def undefinedZf : BitVec 64 := bit 42
def undefinedPf : BitVec 64 := bit 43
def undefinedAf : BitVec 64 := bit 44
def undefinedCf : BitVec 64 := bit 45

/-- The effects that read a flag. -/
def tests : BitVec 64 :=
  testOf ||| testSf ||| testZf ||| testPf ||| testCf ||| testNt ||| testDf

/-- Whether the instruction depends on an earlier value of some flag. -/
def readsFlags (e : FlagEffects) : Bool :=
  e.bits &&& tests != 0

/-- Whether the instruction changes some flag. -/
def writesFlags (e : FlagEffects) : Bool :=
  e.bits &&& ~~~tests != 0

/-- Addition, subtraction, comparison, negation. -/
def arith : BitVec 64 :=
  modifyAf ||| modifyCf ||| modifySf ||| modifyZf ||| modifyPf ||| modifyOf

/-- Addition and subtraction with carry. -/
def arithCarry : BitVec 64 :=
  arith ||| testCf

/-- Bitwise logic and bit tests by mask. -/
def logic : BitVec 64 :=
  resetOf ||| resetCf ||| modifySf ||| modifyZf ||| modifyPf ||| undefinedAf

/-- Increment and decrement keep the carry. -/
def incdec : BitVec 64 :=
  modifyAf ||| modifySf ||| modifyZf ||| modifyPf ||| modifyOf

/-- Shifts. -/
def shift : BitVec 64 :=
  modifyCf ||| modifySf ||| modifyZf ||| modifyPf ||| modifyOf ||| undefinedAf

/-- Rotates touch only carry and overflow. -/
def rotate : BitVec 64 :=
  modifyCf ||| modifyOf

/-- Rotates through the carry. -/
def rotateCarry : BitVec 64 :=
  rotate ||| testCf

/-- Multiplication. -/
def mul : BitVec 64 :=
  modifyCf ||| modifyOf ||| undefinedSf ||| undefinedZf ||| undefinedPf ||| undefinedAf

/-- Division. -/
def div : BitVec 64 :=
  undefinedOf ||| undefinedSf ||| undefinedZf ||| undefinedPf ||| undefinedAf ||| undefinedCf

/-- Single-bit test and change. -/
def bittest : BitVec 64 :=
  modifyCf ||| undefinedOf ||| undefinedSf ||| undefinedAf ||| undefinedPf

/-- Bit scan. -/
def bitscan : BitVec 64 :=
  modifyZf ||| undefinedOf ||| undefinedSf ||| undefinedAf ||| undefinedPf ||| undefinedCf

/-- Population and leading or trailing zero counts. -/
def bitCount : BitVec 64 :=
  modifyZf ||| modifyCf ||| resetOf ||| resetSf ||| resetAf ||| resetPf

/-- Floating-point compares that report in the flags. -/
def fcomi : BitVec 64 :=
  modifyZf ||| modifyPf ||| modifyCf ||| resetOf ||| resetSf ||| resetAf

/-- Bit-field instructions. -/
def bmi : BitVec 64 :=
  modifySf ||| modifyZf ||| modifyCf ||| resetOf ||| undefinedAf ||| undefinedPf

/-- Restoring the whole flags image. -/
def allPrior : BitVec 64 :=
  priorOf ||| priorSf ||| priorZf ||| priorAf ||| priorPf ||| priorCf ||| priorTf ||| priorIf |||
  priorDf ||| priorNt

/-- Loading the low flags from a byte. -/
def sahf : BitVec 64 :=
  modifySf ||| modifyZf ||| modifyAf ||| modifyPf ||| modifyCf

/-- Reading every status flag. -/
def allTest : BitVec 64 :=
  testOf ||| testSf ||| testZf ||| testPf ||| testCf ||| testNt ||| testDf

/-- String instructions consult the direction flag. -/
def stringStep : BitVec 64 :=
  testDf

/-- String comparison. -/
def stringCmp : BitVec 64 :=
  arith ||| stringStep

/-- Decimal adjustment after addition or subtraction. -/
def decimal : BitVec 64 :=
  modifyAf ||| modifyCf ||| modifySf ||| modifyZf ||| modifyPf ||| undefinedOf ||| testCf

/-- Adjustment of unpacked decimals after addition or subtraction. -/
def asciiAdjust : BitVec 64 :=
  modifyAf ||| modifyCf ||| undefinedOf ||| undefinedSf ||| undefinedZf ||| undefinedPf

/-- Adjustment of unpacked decimals around multiplication and division. -/
def asciiMuldiv : BitVec 64 :=
  modifySf ||| modifyZf ||| modifyPf ||| undefinedOf ||| undefinedAf ||| undefinedCf

/-- Wide compare and exchange. -/
def cmpxchg8 : BitVec 64 :=
  modifyZf

/-- Carry-only addition. -/
def adcx : BitVec 64 :=
  modifyCf ||| testCf

/-- Overflow-only addition. -/
def adox : BitVec 64 :=
  modifyOf ||| testOf

/-- Vector bit test. -/
def ptest : BitVec 64 :=
  modifyZf ||| modifyCf ||| resetOf ||| resetSf ||| resetAf ||| resetPf

/-- Random number reads. -/
def rdrand : BitVec 64 :=
  modifyCf ||| resetOf ||| resetSf ||| modifyZf ||| resetAf ||| resetPf

/-- Double-precision shifts. -/
def dshift : BitVec 64 :=
  shift ||| undefinedOf

/-- Clearing the carry. -/
def clc : BitVec 64 :=
  resetCf

/-- Setting the carry. -/
def stc : BitVec 64 :=
  setCf

/-- Filling a byte from the carry. -/
def salc : BitVec 64 :=
  testCf

/-- Complementing the carry. -/
def cmc : BitVec 64 :=
  modifyCf ||| testCf

/-- Clearing the direction flag. -/
def cld : BitVec 64 :=
  resetDf

/-- Setting the direction flag. -/
def stdSet : BitVec 64 :=
  setDf

/-- Disabling interrupts. -/
def cli : BitVec 64 :=
  resetIf

/-- Enabling interrupts. -/
def sti : BitVec 64 :=
  setIf

/-- Software interrupts clear trap, interrupt and nested-task flags. -/
def interrupt : BitVec 64 :=
  resetTf ||| resetIf ||| resetNt

/-- The interrupt on overflow consults the overflow flag. -/
def into : BitVec 64 :=
  interrupt ||| testOf

/-- Loops with a condition. -/
def loopcc : BitVec 64 :=
  testZf

/-- Descriptor checks report in the zero flag. -/
def zfOnly : BitVec 64 :=
  modifyZf

/-- Floating-point move on carry. -/
def fcmovB : BitVec 64 :=
  testCf

/-- Floating-point move on zero. -/
def fcmovE : BitVec 64 :=
  testZf

/-- Floating-point move on carry or zero. -/
def fcmovBe : BitVec 64 :=
  testCf ||| testZf

/-- Floating-point move on parity. -/
def fcmovU : BitVec 64 :=
  testPf

/-- Virtual machine instructions report in carry and zero. -/
def vmx : BitVec 64 :=
  modifyCf ||| modifyZf ||| resetPf ||| resetAf ||| resetSf ||| resetOf

/-- Mask tests report in zero and carry. -/
def zfCf : BitVec 64 :=
  ptest

/-- Packed string compares. -/
def pcmpstr : BitVec 64 :=
  modifyCf ||| modifyZf ||| modifySf ||| modifyOf ||| resetAf ||| resetPf

/-- Toggling the alignment check, which has no effect bit of its own. -/
def alignmentCheck : BitVec 64 :=
  modifyRf

end FlagEffects

end MachineCode.X86
