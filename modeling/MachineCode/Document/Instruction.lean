import MachineCode.Document.Config
import MachineCode.Instruction

/-!
# Instruction documents

The document form of a decoded instruction and of all its parts.
-/

namespace MachineCode

instance : JsonForm Group := Vocabulary.jsonForm Group
instance : JsonForm X86.Mnemonic := Vocabulary.jsonForm X86.Mnemonic
instance : JsonForm Mips.Mnemonic := Vocabulary.jsonForm Mips.Mnemonic
instance : JsonForm X86.Register := Vocabulary.jsonForm X86.Register
instance : JsonForm Mips.Register := Vocabulary.jsonForm Mips.Register
instance : JsonForm X86.SseCondition := Vocabulary.jsonForm X86.SseCondition
instance : JsonForm X86.AvxCondition := Vocabulary.jsonForm X86.AvxCondition
instance : JsonForm X86.XopCondition := Vocabulary.jsonForm X86.XopCondition
instance : JsonForm X86.RoundingMode := Vocabulary.jsonForm X86.RoundingMode

instance : JsonForm Register where
  encode
    | .absent => .text "Invalid"
    | .x86 r => .choice "X86" (JsonForm.encode r)
    | .mips r => .choice "Mips" (JsonForm.encode r)
  decode? j :=
    if j.tag? = some "Invalid" then some .absent
    else match j.choice? with
      | some ("X86", some j) => (JsonForm.decode? j).map .x86
      | some ("Mips", some j) => (JsonForm.decode? j).map .mips
      | _ => none

instance : JsonForm Mnemonic where
  encode
    | .x86 m => .choice "X86" (JsonForm.encode m)
    | .mips m => .choice "Mips" (JsonForm.encode m)
  decode? j :=
    match j.choice? with
    | some ("X86", some j) => (JsonForm.decode? j).map .x86
    | some ("Mips", some j) => (JsonForm.decode? j).map .mips
    | _ => none

instance : JsonForm Access where
  encode a := .text a.name
  decode? := Json.tagged?
    [("None", .none), ("Read", .read), ("Write", .write), ("ReadWrite", .readWrite)]

instance : JsonForm Broadcast where
  encode
    | .oneTo2 => .text "OneTo2"
    | .oneTo4 => .text "OneTo4"
    | .oneTo8 => .text "OneTo8"
    | .oneTo16 => .text "OneTo16"
  decode? := Json.tagged?
    [("OneTo2", .oneTo2), ("OneTo4", .oneTo4), ("OneTo8", .oneTo8), ("OneTo16", .oneTo16)]

instance : JsonForm MemoryRef where
  encode m := .record [
    ("segment", JsonForm.encode m.segment),
    ("base", JsonForm.encode m.base),
    ("index", JsonForm.encode m.index),
    ("scale", JsonForm.encode m.scale),
    ("disp", JsonForm.encode m.disp)]
  decode? j := do
    let r ← j.record? ["segment", "base", "index", "scale", "disp"]
    return {
      segment := ← r.required "segment"
      base := ← r.required "base"
      index := ← r.required "index"
      scale := ← r.required "scale"
      disp := ← r.required "disp" }

instance : JsonForm OperandKind where
  encode
    | .register r => .choice "Register" (JsonForm.encode r)
    | .immediate v => .choice "Immediate" (JsonForm.encode v)
    | .memory m => .choice "Memory" (JsonForm.encode m)
    | .floatImmediate x => .choice "FloatImmediate" (JsonForm.encode x)
  decode? j :=
    match j.choice? with
    | some ("Register", some j) => (JsonForm.decode? j).map .register
    | some ("Immediate", some j) => (JsonForm.decode? j).map .immediate
    | some ("Memory", some j) => (JsonForm.decode? j).map .memory
    | some ("FloatImmediate", some j) => (JsonForm.decode? j).map .floatImmediate
    | _ => none

instance : JsonForm Operand where
  encode o := .record [
    ("kind", JsonForm.encode o.kind),
    ("size", JsonForm.encode o.size),
    ("access", JsonForm.encode o.access),
    ("avx_bcast", .ofOption o.broadcast),
    ("avx_zero_opmask", JsonForm.encode o.zeroing),
    ("mask", JsonForm.encode o.mask)]
  decode? j := do
    let r ← j.record? ["kind", "size", "access", "avx_bcast", "avx_zero_opmask", "mask"]
    return {
      kind := ← r.required "kind"
      size := ← r.required "size"
      access := ← r.required "access"
      broadcast := ← r.optional "avx_bcast"
      zeroing := ← r.required "avx_zero_opmask"
      mask := ← r.required "mask" }

instance : JsonForm X86.Encoding where
  encode
    | .legacy => .text "Legacy"
    | .vex => .text "Vex"
    | .evex => .text "Evex"
    | .xop => .text "Xop"
  decode? := Json.tagged? [("Legacy", .legacy), ("Vex", .vex), ("Evex", .evex), ("Xop", .xop)]

instance : JsonForm X86.FlagEffects where
  encode e := .text e.text
  decode?
    | .string (some s) => X86.FlagEffects.ofText? s
    | _ => none

/-- Names of the fields, in order. -/
def X86.Detail.fieldNames : List String :=
  ["prefix", "opcode", "rex", "addr_size", "modrm", "sib", "disp", "sib_index", "sib_scale",
    "sib_base", "encoding", "sse_cc", "avx_cc", "xop_cc", "avx_sae", "avx_rm", "eflags", "opmask"]

instance : JsonForm X86.Detail where
  encode d := .record [
    ("prefix", JsonForm.encode d.prefixes),
    ("opcode", JsonForm.encode d.opcode),
    ("rex", JsonForm.encode d.rex),
    ("addr_size", JsonForm.encode d.addressSize),
    ("modrm", JsonForm.encode d.modrm),
    ("sib", JsonForm.encode d.sib),
    ("disp", JsonForm.encode d.disp),
    ("sib_index", JsonForm.encode d.sibIndex),
    ("sib_scale", JsonForm.encode d.sibScale),
    ("sib_base", JsonForm.encode d.sibBase),
    ("encoding", JsonForm.encode d.encoding),
    ("sse_cc", JsonForm.encode d.sseCondition),
    ("avx_cc", JsonForm.encode d.avxCondition),
    ("xop_cc", JsonForm.encode d.xopCondition),
    ("avx_sae", JsonForm.encode d.suppressExceptions),
    ("avx_rm", JsonForm.encode d.rounding),
    ("eflags", JsonForm.encode d.effects),
    ("opmask", JsonForm.encode d.opmask)]
  decode? j := do
    let r ← j.record? X86.Detail.fieldNames
    return {
      prefixes := ← r.required "prefix"
      opcode := ← r.required "opcode"
      rex := ← r.required "rex"
      addressSize := ← r.required "addr_size"
      modrm := ← r.required "modrm"
      sib := ← r.required "sib"
      disp := ← r.required "disp"
      sibIndex := ← r.required "sib_index"
      sibScale := ← r.required "sib_scale"
      sibBase := ← r.required "sib_base"
      encoding := ← r.required "encoding"
      sseCondition := ← r.required "sse_cc"
      avxCondition := ← r.required "avx_cc"
      xopCondition := ← r.required "xop_cc"
      suppressExceptions := ← r.required "avx_sae"
      rounding := ← r.required "avx_rm"
      effects := ← r.required "eflags"
      opmask := ← r.required "opmask" }

instance : JsonForm Mips.Detail where
  encode d := .record [
    ("raw", JsonForm.encode d.raw),
    ("delay_slot", JsonForm.encode d.delaySlot)]
  decode? j := do
    let r ← j.record? ["raw", "delay_slot"]
    return { raw := ← r.required "raw", delaySlot := ← r.required "delay_slot" }

instance : JsonForm Detail where
  encode
    | .none => .text "None"
    | .x86 d => .choice "X86" (JsonForm.encode d)
    | .mips d => .choice "Mips" (JsonForm.encode d)
  decode? j :=
    if j.tag? = some "None" then some .none
    else match j.choice? with
      | some ("X86", some j) => (JsonForm.decode? j).map .x86
      | some ("Mips", some j) => (JsonForm.decode? j).map .mips
      | _ => none

/-- Names of the fields, in order. -/
def Instruction.fieldNames : List String :=
  ["address", "bytes", "mnemonic", "op_str", "operands", "length", "arch", "groups", "regs_read",
    "regs_write", "detail"]

instance : JsonForm Instruction where
  encode i := .record [
    ("address", JsonForm.encode i.address),
    ("bytes", JsonForm.encode i.bytes),
    ("mnemonic", JsonForm.encode i.mnemonic),
    ("op_str", JsonForm.encode i.operandText),
    ("operands", JsonForm.encode i.operands),
    ("length", JsonForm.encode i.length),
    ("arch", JsonForm.encode i.architecture),
    ("groups", JsonForm.encode i.groups),
    ("regs_read", JsonForm.encode i.implicitReads),
    ("regs_write", JsonForm.encode i.implicitWrites),
    ("detail", JsonForm.encode i.detail)]
  decode? j := do
    let r ← j.record? Instruction.fieldNames
    return {
      address := ← r.required "address"
      bytes := ← r.required "bytes"
      mnemonic := ← r.required "mnemonic"
      operandText := ← r.required "op_str"
      operands := ← r.required "operands"
      length := ← r.required "length"
      architecture := ← r.required "arch"
      groups := ← r.required "groups"
      implicitReads := ← r.required "regs_read"
      implicitWrites := ← r.required "regs_write"
      detail := ← r.required "detail" }

end MachineCode
