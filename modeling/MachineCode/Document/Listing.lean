import MachineCode.Document.Instruction
import MachineCode.Listing

/-!
# Listing documents

The document form of a listing, of its items and of its failure. The fields of a
choice that has several are given by name only.
-/

namespace MachineCode

instance : JsonForm DecodeError where
  encode e :=
    let offset := ("offset", JsonForm.encode e.offset)
    let shortage (needed available : Nat) : Json := .record
      [offset, ("needed", JsonForm.encode needed), ("available", JsonForm.encode available)]
    .choice e.fault.kind <| match e.fault with
      | .underrun needed available => shortage needed available
      | .truncatedOperand needed available => shortage needed available
      | .excessivePrefixes count => .record [offset, ("count", JsonForm.encode count)]
      | .unknownOpcode => .record [offset]
  decode? j :=
    let shortage (fault : Nat → Nat → Fault) (j : Json) : Option DecodeError := do
      let r ← j.namedRecord? ["offset", "needed", "available"]
      return {
        offset := ← r.required "offset"
        fault := fault (← r.required "needed") (← r.required "available") }
    match j.choice? with
    | some ("Underrun", some j) => shortage .underrun j
    | some ("TruncatedOperand", some j) => shortage .truncatedOperand j
    | some ("ExcessivePrefixes", some j) => do
      let r ← j.namedRecord? ["offset", "count"]
      return {
        offset := ← r.required "offset"
        fault := .excessivePrefixes (← r.required "count") }
    | some ("UnknownOpcode", some j) => do
      let r ← j.namedRecord? ["offset"]
      return { offset := ← r.required "offset", fault := .unknownOpcode }
    | _ => none

instance : JsonForm Item where
  encode
    | .instruction i => .choice "Instruction" (JsonForm.encode i)
    | .skipped offset address byte => .choice "Skipped" (.record [
        ("offset", JsonForm.encode offset),
        ("address", JsonForm.encode address),
        ("byte", JsonForm.encode byte)])
  decode? j :=
    match j.choice? with
    | some ("Instruction", some j) => (JsonForm.decode? j).map .instruction
    | some ("Skipped", some j) => do
      let r ← j.namedRecord? ["offset", "address", "byte"]
      return .skipped (← r.required "offset") (← r.required "address") (← r.required "byte")
    | _ => none

instance : JsonForm Listing where
  encode l := .record [
    ("items", JsonForm.encode l.items),
    ("error", .ofOption l.error),
    ("consumed", JsonForm.encode l.consumed),
    ("data_mnemonic", JsonForm.encode l.dataMnemonic)]
  decode? j := do
    let r ← j.record? ["items", "error", "consumed", "data_mnemonic"]
    return {
      items := ← r.required "items"
      error := ← r.optional "error"
      consumed := ← r.required "consumed"
      dataMnemonic := ← r.required "data_mnemonic" }

end MachineCode
