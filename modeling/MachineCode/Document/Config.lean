import MachineCode.Json.Form
import MachineCode.Options

/-!
# Configuration documents

A configuration is a JSON document. Every option may be left out, and so may the
options as a whole; the mode is a flag text.
-/

namespace MachineCode

instance : JsonForm Architecture where
  encode a := .text a.name
  decode? := Json.tagged? [("x86", .x86), ("mips", .mips)]

instance : JsonForm Mode where
  encode m := .text m.text
  decode?
    | .string (some s) => Mode.ofText? s
    | _ => none

instance : JsonForm ErrorPolicy where
  encode p := .text p.name
  decode? := Json.tagged? [("stop", .stop), ("skip_byte", .skipByte)]

namespace Options

/-- Names of the fields, in order. -/
def fieldNames : List String :=
  ["detail", "on_error", "max_instructions", "skip_data_mnemonic"]

instance : JsonForm Options where
  encode o := .record [
    ("detail", JsonForm.encode o.detail),
    ("on_error", JsonForm.encode o.onError),
    ("max_instructions", JsonForm.encode o.maxInstructions),
    ("skip_data_mnemonic", JsonForm.encode o.dataMnemonic)]
  decode? j := do
    let r ← j.record? fieldNames
    let default : Options := {}
    return {
      detail := ← r.withDefault "detail" default.detail
      onError := ← r.withDefault "on_error" default.onError
      maxInstructions := ← r.withDefault "max_instructions" default.maxInstructions
      dataMnemonic := ← r.withDefault "skip_data_mnemonic" default.dataMnemonic }

end Options

namespace Config

/-- Names of the fields, in order. -/
def fieldNames : List String :=
  ["architecture", "mode", "options"]

instance : JsonForm Config where
  encode c := .record [
    ("architecture", JsonForm.encode c.architecture),
    ("mode", JsonForm.encode c.mode),
    ("options", JsonForm.encode c.options)]
  decode? j := do
    let r ← j.record? fieldNames
    return {
      architecture := ← r.required "architecture"
      mode := ← r.required "mode"
      options := ← r.withDefault "options" {} }

/-- The text of a configuration. -/
def text (c : Config) : String :=
  (JsonForm.encode c).pretty

/-- Reads the text of a configuration. The mode need not suit the architecture. -/
def ofText? (s : String) : Option Config := do
  let j ← Json.parse? s
  JsonForm.decode? j

end Config

end MachineCode
