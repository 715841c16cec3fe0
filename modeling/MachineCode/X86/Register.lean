import MachineCode.Vocabulary

/-!
# Registers of the x86 family

A register is a class and a number in it. The class fixes the width, so the
width of a register, the family it belongs to and whether its number needs an
extension bit are read off the constructor.
-/

namespace MachineCode.X86

/-- Registers, by class and number. -/
inductive Register where
  | absent
  /-- Low byte of a general register: `al`, …, `dil`, `r8b`, …, `r15b`. -/
  | byte (n : BitVec 4)
  /-- Second byte of one of the first four general registers: `ah`, `ch`, `dh`, `bh`. -/
  | highByte (n : BitVec 2)
  | word (n : BitVec 4)
  | dword (n : BitVec 4)
  | qword (n : BitVec 4)
  | ip
  | eip
  | rip
  | flags
  | segment (n : Fin 6)
  | control (n : BitVec 4)
  | debug (n : BitVec 4)
  /-- Floating-point stack register, counted from the top. -/
  | stack (n : BitVec 3)
  /-- Floating-point status word. -/
  | status
  | mmx (n : BitVec 3)
  | opmask (n : BitVec 3)
  | xmm (n : BitVec 5)
  | ymm (n : BitVec 5)
  | zmm (n : BitVec 5)
deriving DecidableEq

namespace Register

/-- Names of the first eight general registers without their width letter. -/
def stems : Array String := #["ax", "cx", "dx", "bx", "sp", "bp", "si", "di"]

/-- Names of the low bytes of the first eight general registers. -/
def byteNames : Array String := #["al", "cl", "dl", "bl", "spl", "bpl", "sil", "dil"]

/-- A general register: a stem with a letter in front, or `r` with the number and a letter
behind. -/
def generalName (front : String) (n : Nat) (back : String) : String :=
  if n < 8 then front ++ stems.getD n "" else numbered "r" n ++ back

/-- Display name. -/
def name : Register → String
  | absent => ""
  | byte n => if n.toNat < 8 then byteNames.getD n.toNat "" else numbered "r" n.toNat ++ "b"
  | highByte n => #["ah", "ch", "dh", "bh"].getD n.toNat ""
  | word n => generalName "" n.toNat "w"
  | dword n => generalName "e" n.toNat "d"
  | qword n => generalName "r" n.toNat ""
  | ip => "ip"
  | eip => "eip"
  | rip => "rip"
  | flags => "flags"
  | segment n => #["es", "cs", "ss", "ds", "fs", "gs"].getD n.val ""
  | control n => numbered "cr" n.toNat
  | debug n => numbered "dr" n.toNat
  | stack n => numbered "st(" n.toNat ++ ")"
  | status => "fpsw"
  | mmx n => numbered "mm" n.toNat
  | opmask n => numbered "k" n.toNat
  | xmm n => numbered "xmm" n.toNat
  | ymm n => numbered "ymm" n.toNat
  | zmm n => numbered "zmm" n.toNat

/-- Document identifier. -/
def tag : Register → String
  | absent => "Invalid"
  | flags => "Eflags"
  | stack n => numbered "St" n.toNat
  | r => capitalize r.name

/-- Every register, class by class. -/
def all : List Register :=
  ((bitVectors 4).take 4).map byte
    ++ (bitVectors 2).map highByte
    ++ ((bitVectors 4).drop 4).map byte
    ++ (bitVectors 4).map word
    ++ (bitVectors 4).map dword
    ++ (bitVectors 4).map qword
    ++ [ip, eip, rip, flags]
    ++ (List.finRange 6).map segment
    ++ (bitVectors 4).map control
    ++ (bitVectors 4).map debug
    ++ (bitVectors 3).map stack
    ++ [status]
    ++ (bitVectors 3).map mmx
    ++ (bitVectors 3).map opmask
    ++ (bitVectors 5).map xmm
    ++ (bitVectors 5).map ymm
    ++ (bitVectors 5).map zmm

instance : Vocabulary Register where
  absent := absent
  all := all
  name := name
  tag := tag

/-- The general register with a number, of a width in bits. Byte registers 4 to 7 are the second
bytes `ah` to `bh` unless an extension prefix is present. Widths other than 8, 16, 32 and 64 have
no general register. -/
def general (number : UInt8) (bits : UInt16) (extended : Bool) : Register :=
  let n := number.toBitVec.setWidth 4
  if bits = 8 then
    if !extended && 4 ≤ n && n < 8 then highByte (n.setWidth 2) else byte n
  else if bits = 16 then word n
  else if bits = 32 then dword n
  else if bits = 64 then qword n
  else absent

/-- The segment register with a number; 6 and 7 are reserved. -/
def segmentOf (number : UInt8) : Register :=
  if h : number.toNat < 6 then segment ⟨number.toNat, h⟩ else absent

/-- The control register with a number, modulo 16. -/
def controlOf (number : UInt8) : Register :=
  control (number.toBitVec.setWidth 4)

/-- The debug register with a number, modulo 16. -/
def debugOf (number : UInt8) : Register :=
  debug (number.toBitVec.setWidth 4)

/-- The floating-point stack register with a number, modulo 8. -/
def stackOf (number : UInt8) : Register :=
  stack (number.toBitVec.setWidth 3)

/-- The `mm` register with a number, modulo 8. -/
def mmxOf (number : UInt8) : Register :=
  mmx (number.toBitVec.setWidth 3)

/-- The opmask register with a number, modulo 8. -/
def opmaskOf (number : UInt8) : Register :=
  opmask (number.toBitVec.setWidth 3)

/-- The vector register with a number, modulo 32; widths other than 512 and 256 give `xmm`. -/
def vectorOf (number : UInt8) (bits : UInt16) : Register :=
  let n := number.toBitVec.setWidth 5
  if bits = 512 then zmm n else if bits = 256 then ymm n else xmm n

/-- The instruction pointer for an address width. -/
def instructionPointer (bits : UInt16) : Register :=
  if bits = 16 then ip else if bits = 32 then eip else rip

/-- Width in bits; zero for the absent register. -/
def size : Register → UInt16
  | absent => 0
  | byte _ | highByte _ => 8
  | word _ | segment _ | ip | status => 16
  | dword _ | eip | flags => 32
  | qword _ | rip | control _ | debug _ | mmx _ | opmask _ => 64
  | stack _ => 80
  | xmm _ => 128
  | ymm _ => 256
  | zmm _ => 512

/-- The 64-bit general register that contains this one; other registers stand for themselves. -/
def widest : Register → Register
  | byte n | word n | dword n | qword n => qword n
  | highByte n => qword (n.setWidth 4)
  | r => r

/-- Whether memory based on this register lies on the stack. -/
def isStackBase (r : Register) : Bool :=
  r.widest = qword 4 || r.widest = qword 5

def al : Register := byte 0
def cl : Register := byte 1
def ah : Register := highByte 0
def ax : Register := word 0
def dx : Register := word 2
def eax : Register := dword 0
def ecx : Register := dword 1
def edx : Register := dword 2
def ebx : Register := dword 3
def rax : Register := qword 0
def rcx : Register := qword 1
def rdx : Register := qword 2
def rbx : Register := qword 3
def r11 : Register := qword 11
def es : Register := segment 0
def cs : Register := segment 1
def ss : Register := segment 2
def ds : Register := segment 3
def fs : Register := segment 4
def gs : Register := segment 5
def xmm0 : Register := xmm 0

end Register

end MachineCode.X86
