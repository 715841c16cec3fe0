import MachineCode.Json.Tree
import MachineCode.Vocabulary

/-!
# Values as documents

How a value is written as a document and read back. A record is an object with
its fields by name; reading also takes an array of the fields in order, ignores
unknown members, and refuses repeated ones. A choice without content is its tag,
or an object from the tag to null; a choice with content is an object from the
tag to the content. Numbers must be written as integers and fit.
-/

namespace MachineCode

/-- A document form of a type. -/
class JsonForm (α : Type) where
  encode : α → Json
  decode? : Json → Option α

namespace Json

/-- An integer in a range. -/
def integerIn? (low high : Int) : Json → Option Int
  | integer i => if low ≤ i ∧ i ≤ high then some i else none
  | _ => none

/-- A natural number below a bound. -/
def natBelow? (bound : Nat) : Json → Option Nat
  | integer (.ofNat n) => if n < bound then some n else none
  | _ => none

/-- The fields given for a record. -/
structure Record where
  fields : List (String × Json)
  /-- Whether the fields were given by name. -/
  named : Bool

/-- The member with a key, `none` if there is none, and failure if there are several. -/
def uniqueMember? (members : List (Option String × Json)) (key : String) :
    Option (Option Json) :=
  match members.filter fun m => m.1 == some key with
  | [] => some none
  | [m] => some (some m.2)
  | _ => none

/-- The fields of a record, of which the names are given in order. -/
def record? (names : List String) : Json → Option Record
  | object members => do
    if members.any fun m => m.1.isNone then none
    let found ← names.mapM fun name => (uniqueMember? members name).map fun j => (name, j)
    return {
      fields := found.filterMap fun (name, j) => j.map fun (j : Json) => (name, j)
      named := true }
  | array elements =>
    if elements.length ≤ names.length then
      some { fields := names.zip elements, named := false }
    else none
  | _ => none

/-- The fields of a record that must be given by name. -/
def namedRecord? (names : List String) (j : Json) : Option Record :=
  (j.record? names).filter (·.named)

namespace Record

variable {α : Type} [JsonForm α]

/-- A field that must be there. -/
def required (r : Record) (name : String) : Option α := do
  let j ← r.fields.lookup name
  JsonForm.decode? j

/-- A field that may be null, or missing among named fields. -/
def optional (r : Record) (name : String) : Option (Option α) :=
  match r.fields.lookup name with
  | some .null => some none
  | some j => (JsonForm.decode? j).map some
  | none => if r.named then some none else none

/-- A field that takes a default if it is missing. -/
def withDefault (r : Record) (name : String) (default : α) : Option α :=
  match r.fields.lookup name with
  | some j => JsonForm.decode? j
  | none => some default

end Record

/-- An optional value: null if it is missing. -/
def ofOption {α : Type} [JsonForm α] (x : Option α) : Json :=
  x.elim .null JsonForm.encode

/-- The tag of a choice and its content. -/
def choice? : Json → Option (String × Option Json)
  | string (some tag) => some (tag, none)
  | object [(some tag, content)] => some (tag, some content)
  | _ => none

/-- The tag of a choice without content. -/
def tag? (j : Json) : Option String :=
  match j.choice? with
  | some (tag, none) => some tag
  | some (tag, some .null) => some tag
  | _ => none

/-- A choice without content, by its tag. -/
def tagged? {α : Type} (tags : List (String × α)) (j : Json) : Option α :=
  j.tag?.bind fun tag => tags.lookup tag

/-- A choice with content. -/
def choice (tag : String) (content : Json) : Json :=
  record [(tag, content)]

/-- Keeps the last of the members with one key. -/
def lastOfEach : List (Option String × Json) → List (Option String × Json)
  | [] => []
  | m :: ms => if ms.any fun n => n.1 == m.1 then lastOfEach ms else m :: lastOfEach ms

mutual

/-- The document in which the last of repeated members stands for all of them. -/
def settle : Json → Json
  | array elements => array (settleElements elements)
  | object members => object (lastOfEach (settleMembers members))
  | j => j

def settleElements : List Json → List Json
  | [] => []
  | j :: js => settle j :: settleElements js

def settleMembers : List (Option String × Json) → List (Option String × Json)
  | [] => []
  | (k, j) :: ms => (k, settle j) :: settleMembers ms

end

end Json

instance : JsonForm Bool where
  encode := .bool
  decode?
    | .bool b => some b
    | _ => none

instance : JsonForm String where
  encode := .text
  decode?
    | .string s => s
    | _ => none

/-- Natural numbers are sizes and offsets, and fit in 64 bits. -/
instance : JsonForm Nat where
  encode := .nat
  decode? j := j.natBelow? UInt64.size

instance : JsonForm UInt8 where
  encode n := .nat n.toNat
  decode? j := (j.natBelow? UInt8.size).map UInt8.ofNat

instance : JsonForm UInt16 where
  encode n := .nat n.toNat
  decode? j := (j.natBelow? UInt16.size).map UInt16.ofNat

instance : JsonForm UInt64 where
  encode n := .nat n.toNat
  decode? j := (j.natBelow? UInt64.size).map UInt64.ofNat

instance : JsonForm (BitVec 32) where
  encode n := .nat n.toNat
  decode? j := (j.natBelow? UInt32.size).map (BitVec.ofNat 32)

instance : JsonForm Int8 where
  encode n := .integer n.toInt
  decode? j := (j.integerIn? Int8.minValue.toInt Int8.maxValue.toInt).map Int8.ofInt

instance : JsonForm Int64 where
  encode n := .integer n.toInt
  decode? j := (j.integerIn? Int64.minValue.toInt Int64.maxValue.toInt).map Int64.ofInt

/-- Any number can be read in the binary64 format. -/
instance : JsonForm Binary64 where
  encode x := if x.isFinite then .decimal (.ofBinary64 x) else .null
  decode?
    | .integer i => Numeral.toBinary64? { negative := i < 0, whole := Numeral.digitsOf i.natAbs }
    | .decimal n => n.toBinary64?
    | _ => none

instance {α : Type} [JsonForm α] : JsonForm (List α) where
  encode xs := .array (xs.map JsonForm.encode)
  decode?
    | .array elements => elements.mapM JsonForm.decode?
    | _ => none

instance {α : Type} [JsonForm α] {n : Nat} : JsonForm (Vector α n) where
  encode xs := JsonForm.encode xs.toList
  decode? j := do
    let xs : List α ← JsonForm.decode? j
    if h : xs.toArray.size = n then some ⟨xs.toArray, h⟩ else none

/-- Members of a vocabulary are written by their tags. -/
@[reducible] def Vocabulary.jsonForm (α : Type) [Vocabulary α] : JsonForm α where
  encode a := .text (Vocabulary.tag a)
  decode? j := j.tag?.bind Vocabulary.ofTag?

end MachineCode
