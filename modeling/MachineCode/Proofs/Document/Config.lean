import MachineCode.Document.Config
import MachineCode.Proofs.Json.Form
import MachineCode.Proofs.Text.FlagSet

/-!
# Configurations read back

A configuration is read back from its text, whatever the mode and the mnemonic
for data. Options that are removed from the document take their defaults, and the
others keep what they say: the record is read as the fields that are left, and a
field is looked up among these as it would be among all, unless it was removed.
-/

namespace MachineCode

open JsonForm Json

namespace Json

/-- An object without the members that have one of some keys. -/
def dropMembers (keys : List String) : Json → Json
  | object members => object (members.filter fun m => m.1 ∉ keys.map some)
  | j => j

/-- An object with another value for a member. -/
def mapMember (key : String) (f : Json → Json) : Json → Json
  | object members => object (members.map fun m => if m.1 = some key then (m.1, f m.2) else m)
  | j => j

theorem dropMembers_record (keys : List String) (members : List (String × Json)) :
    (record members).dropMembers keys = record (members.filter fun m => m.1 ∉ keys) := by
  have hkey (k : String) : some k ∈ keys.map some ↔ k ∈ keys := by simp
  simp only [record_eq, dropMembers, List.filter_map, Function.comp_def, hkey]

theorem lookup_filter_not_mem (keys : List String) (members : List (String × Json))
    (key : String) :
    (members.filter fun m => m.1 ∉ keys).lookup key
      = if key ∈ keys then none else members.lookup key := by
  split
  · next hmem =>
      refine lookup_eq_none fun hkey => ?_
      obtain ⟨m, hm, rfl⟩ := List.mem_map.mp hkey
      exact of_decide_eq_true (List.mem_filter.mp hm).2 hmem
  · next hmem =>
      induction members with
      | nil => rfl
      | cons m members ih =>
          by_cases heq : key = m.1
          · subst heq
            rw [List.filter_cons_of_pos (by simpa using hmem), List.lookup_cons_self,
              List.lookup_cons_self]
          · have hne : (key == m.1) = false := by simpa using heq
            rw [List.lookup_cons, hne, List.filter_cons]
            split
            · rw [List.lookup_cons, hne, ih]
            · rw [ih]

/-- A field that was removed takes its default, and any other keeps its value. -/
theorem Record.withDefault_filter {α : Type} [JsonForm α] [LawfulJsonForm α] {keys : List String}
    {members : List (String × Json)} {name : String} {a : α}
    (h : members.lookup name = some (encode a)) (default : α) :
    Record.withDefault { fields := members.filter fun m => m.1 ∉ keys, named := true } name default
      = some (if name ∈ keys then default else a) := by
  rw [Record.withDefault, lookup_filter_not_mem]
  by_cases hmem : name ∈ keys
  · rw [if_pos hmem, if_pos hmem]
  · rw [if_neg hmem, if_neg hmem, h]
    exact decode?_encode a

end Json

instance : LawfulJsonForm Architecture where
  readsBack a := ⟨isPlain_text a.name, by cases a <;> rfl⟩

instance : LawfulJsonForm Mode where
  readsBack m := ⟨isPlain_text m.text, Mode.ofText?_text m⟩

instance : LawfulJsonForm ErrorPolicy where
  readsBack p := ⟨isPlain_text p.name, by cases p <;> rfl⟩

namespace Options

/-- The members of the document. -/
def members (o : Options) : List (String × Json) := [
  ("detail", encode o.detail),
  ("on_error", encode o.onError),
  ("max_instructions", encode o.maxInstructions),
  ("skip_data_mnemonic", encode o.dataMnemonic)]

/-- The options of which some fields, by their names, are at their defaults. -/
def reset (o : Options) (names : List String) : Options where
  detail := if "detail" ∈ names then ({} : Options).detail else o.detail
  onError := if "on_error" ∈ names then ({} : Options).onError else o.onError
  maxInstructions :=
    if "max_instructions" ∈ names then ({} : Options).maxInstructions else o.maxInstructions
  dataMnemonic :=
    if "skip_data_mnemonic" ∈ names then ({} : Options).dataMnemonic else o.dataMnemonic

theorem dropMembers_encode (o : Options) (names : List String) :
    (encode o).dropMembers names = record (o.members.filter fun m => m.1 ∉ names) :=
  dropMembers_record names o.members

theorem isPlain_members (o : Options) : ∀ m ∈ o.members, m.2.IsPlain := by
  simp [members, isPlain_encode]

/-- Without some of its members the document is read as the options with these reset. -/
theorem decode?_dropMembers (o : Options) (names : List String) :
    decode? ((encode o).dropMembers names) = some (o.reset names) := by
  have hfields : (o.members.filter fun m => m.1 ∉ names).map Prod.fst |>.Sublist fieldNames :=
    List.filter_sublist.map Prod.fst
  rw [dropMembers_encode]
  show ((record _).record? fieldNames).bind _ = _
  rw [record?_record (by decide) hfields]
  have hdetail : o.members.lookup "detail" = some (encode o.detail) := rfl
  have honError : o.members.lookup "on_error" = some (encode o.onError) := rfl
  have hmax : o.members.lookup "max_instructions" = some (encode o.maxInstructions) := rfl
  have hdata : o.members.lookup "skip_data_mnemonic" = some (encode o.dataMnemonic) := rfl
  simp only [Option.bind_some, Record.withDefault_filter hdetail,
    Record.withDefault_filter honError, Record.withDefault_filter hmax,
    Record.withDefault_filter hdata]
  rfl

theorem reset_nil (o : Options) : o.reset [] = o := by
  simp [reset]

instance : LawfulJsonForm Options where
  readsBack o := {
    plain := isPlain_record o.isPlain_members
    decode := by
      have hall : (encode o).dropMembers [] = encode o := by
        simp only [dropMembers_encode, List.not_mem_nil, not_false_eq_true, decide_true,
          List.filter_true]
        rfl
      rw [← hall, decode?_dropMembers, reset_nil] }

end Options

namespace Config

/-- The document without some of the options, by their names. -/
def documentWithout (c : Config) (names : List String) : Json :=
  (encode c).mapMember "options" (dropMembers names)

theorem documentWithout_eq (c : Config) (names : List String) :
    c.documentWithout names = record [
      ("architecture", encode c.architecture),
      ("mode", encode c.mode),
      ("options", (encode c.options).dropMembers names)] :=
  rfl

theorem isPlain_documentWithout (c : Config) (names : List String) :
    (c.documentWithout names).IsPlain := by
  have hoptions : ((encode c.options).dropMembers names).IsPlain := by
    rw [Options.dropMembers_encode]
    exact isPlain_record fun m hm => c.options.isPlain_members m (List.mem_filter.mp hm).1
  rw [documentWithout_eq]
  exact isPlain_record (by simp [isPlain_encode, hoptions])

theorem decode?_documentWithout (c : Config) (names : List String) :
    decode? (c.documentWithout names) = some { c with options := c.options.reset names } := by
  rw [documentWithout_eq]
  exact record?_bind
    (by simp [Record.required, Record.withDefault, List.lookup_cons, Options.decode?_dropMembers])
    (by decide) rfl

instance : LawfulJsonForm Config where
  readsBack c := {
    plain := isPlain_record (by simp [isPlain_encode])
    decode := record?_bind
      (by simp [Record.required, Record.withDefault, List.lookup_cons]) (by decide) rfl }

/-- A configuration is read back from its text. Without some of the options the document is read,
indented or not, as the same configuration with these options at their defaults. -/
theorem ofText?_text_and_without (c : Config) (removed : List String) :
    ofText? c.text = some c
      ∧ ofText? (c.documentWithout removed).pretty
          = some { c with options := c.options.reset removed }
      ∧ ofText? (c.documentWithout removed).compact
          = some { c with options := c.options.reset removed } := by
  refine ⟨(LawfulJsonForm.readsBack c).roundTrips.pretty, ?_, ?_⟩
  · show (parse? _).bind decode? = _
    rw [parse?_pretty (c.isPlain_documentWithout removed)]
    exact c.decode?_documentWithout removed
  · show (parse? _).bind decode? = _
    rw [parse?_compact (c.isPlain_documentWithout removed)]
    exact c.decode?_documentWithout removed

end Config

end MachineCode
