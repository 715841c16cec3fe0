import MachineCode.Engine

/-!
# Listings

A walk over a buffer decodes one instruction after the other and yields items:
instructions, and single bytes that were stepped over. The items cover the
buffer from its beginning without a gap, up to the place where the walk ended.
-/

namespace MachineCode

/-- One entry of a listing. -/
inductive Item where
  | instruction (i : Instruction)
  /-- A byte that was stepped over. -/
  | skipped (offset : Nat) (address : UInt64) (byte : UInt8)
deriving DecidableEq

namespace Item

/-- The number of bytes that the item covers. -/
def length : Item → Nat
  | instruction i => i.length.toNat
  | skipped .. => 1

/-- The address of the first byte that the item covers. -/
def address : Item → UInt64
  | instruction i => i.address
  | skipped _ address _ => address

/-- Whether the item covers no byte. -/
def isEmpty (item : Item) : Bool :=
  item.length == 0

/-- The instruction, if the item is one. -/
def instruction? : Item → Option Instruction
  | instruction i => some i
  | skipped .. => none

/-- The line of a listing. -/
def line (dataMnemonic : String) : Item → String
  | instruction i => i.line
  | skipped _ address byte =>
    Instruction.listingLine address [byte]
      (dataMnemonic ++ " 0x" ++ Text.hexPadded 2 byte.toNat)

end Item

/-- What a walk over a buffer found. -/
structure Listing where
  items : List Item
  /-- The failure that ended the walk. -/
  error : Option DecodeError
  /-- The offset where the walk ended. -/
  consumed : Nat
  dataMnemonic : String
deriving DecidableEq

namespace Listing

/-- The number of instructions. -/
def instructionCount (l : Listing) : Nat :=
  (l.items.filterMap Item.instruction?).length

/-- The number of bytes that were stepped over. -/
def skippedCount (l : Listing) : Nat :=
  l.items.length - l.instructionCount

/-- The number of bytes that the items cover. -/
def covered (l : Listing) : Nat :=
  l.items.foldl (fun n item => n + item.length) 0

/-- The lines, one an item. -/
def lines (l : Listing) : List String :=
  l.items.map (Item.line l.dataMnemonic)

/-- The whole text: the lines, and the failure as a remark. -/
def text (l : Listing) : String :=
  String.join (l.lines.map (· ++ "\n"))
    ++ l.error.elim "" fun e => "; " ++ e.message ++ "\n"

/-- A listing with one more item in front. -/
def push (item : Item) (l : Listing) : Listing :=
  { l with items := item :: l.items }

end Listing

namespace Engine

/-- Walks over the bytes from an offset and an address on, for at most `budget` items. Every
instruction has at least one byte. -/
def walk (e : Engine) (budget : Option Nat) (offset : Nat) (address : UInt64)
    (bytes : List UInt8) : Listing :=
  let done (error : Option DecodeError) : Listing :=
    { items := [], error, consumed := offset, dataMnemonic := e.options.dataMnemonic }
  match bytes with
  | [] => done none
  | b :: bs =>
    if budget = some 0 then done none
    else
      let budget := budget.map (· - 1)
      match e.decode address (b :: bs) with
      | .ok i =>
        let n := i.length.toNat - 1
        (walk e budget (offset + n + 1) (address + UInt64.ofNat (n + 1)) (bs.drop n)).push
          (.instruction i)
      | .error fault =>
        match e.options.onError with
        | .stop => done (some { offset, fault })
        | .skipByte =>
          (walk e budget (offset + 1) (address + 1) bs).push (.skipped offset address b)
termination_by bytes.length

/-- The listing of a buffer that begins at an address. -/
def listing (e : Engine) (bytes : List UInt8) (address : UInt64) : Listing :=
  e.walk e.options.limit? 0 address bytes

/-- The listings of independent buffers. -/
def listings (e : Engine) (inputs : List (List UInt8 × UInt64)) : List Listing :=
  inputs.map fun (bytes, address) => e.listing bytes address

end Engine

end MachineCode
