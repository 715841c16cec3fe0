import MachineCode.Json.Form
import MachineCode.Proofs.Json.Tree
import Mathlib.Data.List.Basic

/-!
# Values read back from their documents

A value is read back if its document gives the value again and if the document
itself is read back from its text. Most types have all their values read back.
What remains has to be said value by value: a natural number must fit in 64 bits,
and what holds one inherits the condition.

A record is read back field by field. Its document has each field once, so
looking a name up in the fields that were found is looking it up in those that
were written; this does not change when some of them are left out.
-/

namespace MachineCode

/-- Whether a value is given again by its document, and this by its text. -/
structure JsonForm.ReadsBack {α : Type} [JsonForm α] (a : α) : Prop where
  plain : (encode a).IsPlain
  decode : decode? (encode a) = some a

/-- A type of which every value is read back from its document. -/
class LawfulJsonForm (α : Type) [JsonForm α] : Prop where
  readsBack : ∀ a : α, JsonForm.ReadsBack a

/-- Whether a value is given again by its document, and by the text of this, in one line or
indented. -/
structure JsonForm.RoundTrips {α : Type} [JsonForm α] (a : α) : Prop where
  document : decode? (encode a) = some a
  compact : (Json.parse? (encode a).compact).bind decode? = some a
  pretty : (Json.parse? (encode a).pretty).bind decode? = some a

theorem JsonForm.ReadsBack.roundTrips {α : Type} [JsonForm α] {a : α} (h : ReadsBack a) :
    RoundTrips a where
  document := h.decode
  compact := by
    rw [Json.parse?_compact h.plain]
    exact h.decode
  pretty := by
    rw [Json.parse?_pretty h.plain]
    exact h.decode

/-- Reading a document that was written for a value gives the value. -/
@[simp] theorem JsonForm.decode?_encode {α : Type} [JsonForm α] [LawfulJsonForm α] (a : α) :
    decode? (encode a) = some a :=
  (LawfulJsonForm.readsBack a).decode

theorem JsonForm.isPlain_encode {α : Type} [JsonForm α] [LawfulJsonForm α] (a : α) :
    (encode a).IsPlain :=
  (LawfulJsonForm.readsBack a).plain

namespace Json

theorem isPlain_null : null.IsPlain := by simp [IsPlain, tokens, Token.IsPlain]

theorem isPlain_bool (b : Bool) : (bool b).IsPlain := by simp [IsPlain, tokens, Token.IsPlain]

theorem isPlain_integer (i : Int) : (integer i).IsPlain := by simp [IsPlain, tokens, Token.IsPlain]

theorem isPlain_text (s : String) : (text s).IsPlain := by
  simp [text, IsPlain, tokens, Token.IsPlain]

theorem isPlain_record {members : List (String × Json)} (h : ∀ m ∈ members, m.2.IsPlain) :
    (record members).IsPlain := by
  refine isPlain_object fun m hm => ?_
  obtain ⟨m', hm', rfl⟩ := List.mem_map.mp hm
  exact ⟨rfl, h m' hm'⟩

theorem isPlain_choice {content : Json} (h : content.IsPlain) (tag : String) :
    (choice tag content).IsPlain :=
  isPlain_record (by simpa using h)

theorem record_eq (members : List (String × Json)) :
    record members = object (members.map fun m => (some m.1, m.2)) :=
  rfl

theorem uniqueMember?_record {members : List (String × Json)}
    (hnodup : (members.map Prod.fst).Nodup) (key : String) :
    uniqueMember? (members.map fun m => (some m.1, m.2)) key = some (members.lookup key) := by
  induction members with
  | nil => rfl
  | cons m members ih =>
      obtain ⟨k, v⟩ := m
      obtain ⟨hk, hnodup⟩ := List.nodup_cons.mp hnodup
      rw [uniqueMember?, List.map_cons]
      by_cases heq : k = key
      · subst heq
        have hrest : ∀ m ∈ members.map fun m => (some m.1, m.2), ¬(m.1 == some k) = true := by
          intro m hm hkey
          obtain ⟨m', hm', rfl⟩ := List.mem_map.mp hm
          exact hk (List.mem_map.mpr ⟨m', hm', Option.some.inj (eq_of_beq hkey)⟩)
        rw [List.filter_cons_of_pos (by simp), List.filter_eq_nil_iff.mpr hrest,
          List.lookup_cons_self]
      · have hne : (key == k) = false := by simpa using Ne.symm heq
        rw [List.filter_cons_of_neg (by simpa using heq), ← uniqueMember?, ih hnodup,
          List.lookup_cons, hne]

theorem lookup_eq_none {key : String} {members : List (String × Json)}
    (h : key ∉ members.map Prod.fst) : members.lookup key = none :=
  List.lookup_eq_none_iff.mpr fun m hm => by
    simpa using fun heq : key = m.1 => h (heq ▸ List.mem_map_of_mem hm)

/-- Fields that are looked up by their names are the fields that were given. -/
theorem filterMap_lookup {names : List String} (hnodup : names.Nodup)
    {members : List (String × Json)} (h : (members.map Prod.fst).Sublist names) :
    names.filterMap (fun name => (members.lookup name).map fun j => (name, j)) = members := by
  induction names generalizing members with
  | nil => rw [List.map_eq_nil_iff.mp (List.sublist_nil.mp h), List.filterMap_nil]
  | cons name names ih =>
      obtain ⟨hname, hnames⟩ := List.nodup_cons.mp hnodup
      rcases List.sublist_cons_iff.mp h with hrest | ⟨keys, hkeys, hrest⟩
      · have habsent : name ∉ members.map Prod.fst := fun hmem => hname (hrest.subset hmem)
        rw [List.filterMap_cons, lookup_eq_none habsent]
        exact ih hnames hrest
      · obtain ⟨m, members, rfl, rfl, rfl⟩ := List.map_eq_cons_iff.mp hkeys
        have hothers : names.filterMap (fun n => ((m :: members).lookup n).map fun j => (n, j))
            = names.filterMap fun n => (members.lookup n).map fun j => (n, j) :=
          List.filterMap_congr fun n hn => by
            have : (n == m.1) = false := by simpa using fun heq : n = m.1 => hname (heq ▸ hn)
            rw [List.lookup_cons, this]
        rw [List.filterMap_cons, List.lookup_cons_self, hothers, ih hnames hrest]
        rfl

/-- A record is read as the fields that it has, which may be some of those in the list. -/
theorem record?_record {names : List String} (hnodup : names.Nodup)
    {members : List (String × Json)} (h : (members.map Prod.fst).Sublist names) :
    (record members).record? names = some { fields := members, named := true } := by
  have hkeys : (members.map fun m => (some m.1, m.2)).any (fun m => m.1.isNone) = false := by
    simp
  have hfound : (names.mapM fun name =>
      (uniqueMember? (members.map fun m => (some m.1, m.2)) name).map fun j => (name, j))
      = some (names.map fun name => (name, members.lookup name)) := by
    simp only [uniqueMember?_record (hnodup.sublist h), Option.map_some]
    exact List.mapM_pure
  rw [record_eq, record?, hkeys, if_neg Bool.false_ne_true, hfound]
  show some _ = _
  rw [List.filterMap_map]
  exact congrArg some (congrArg (Record.mk · true) (filterMap_lookup hnodup h))

theorem record?_record_all {names : List String} (hnodup : names.Nodup)
    {members : List (String × Json)} (h : members.map Prod.fst = names) :
    (record members).record? names = some { fields := members, named := true } :=
  record?_record hnodup (h ▸ List.Sublist.refl _)

section

variable {α : Type} {names : List String} {members : List (String × Json)}
  {make : Record → Option α} {a : α}

/-- What is made of the fields of a record is made of the document with all of them. -/
theorem record?_bind (hmake : make { fields := members, named := true } = some a)
    (hnodup : names.Nodup) (h : members.map Prod.fst = names) :
    ((record members).record? names).bind make = some a := by
  rw [record?_record_all hnodup h]
  exact hmake

theorem namedRecord?_bind (hmake : make { fields := members, named := true } = some a)
    (hnodup : names.Nodup) (h : members.map Prod.fst = names) :
    ((record members).namedRecord? names).bind make = some a := by
  rw [namedRecord?, record?_record_all hnodup h]
  exact hmake

end

end Json

/-- A value that is written as a choice is read back if the content is. -/
theorem JsonForm.ReadsBack.choice {α β : Type} [JsonForm α] [JsonForm β] {a : α}
    (h : ReadsBack a) (make : α → β) {tag : String}
    (hencode : encode (make a) = Json.choice tag (encode a))
    (hdecode : decode? (Json.choice tag (encode a)) = (decode? (encode a)).map make) :
    ReadsBack (make a) where
  plain := hencode ▸ Json.isPlain_choice h.plain tag
  decode := by
    rw [hencode, hdecode, h.decode]
    rfl

section

open JsonForm Json

theorem Json.isPlain_ofOption {α : Type} [JsonForm α] {x : Option α}
    (h : ∀ a, x = some a → ReadsBack a) : (ofOption x).IsPlain := by
  cases x with
  | none => exact isPlain_null
  | some a => exact (h a rfl).plain

/-- A value whose document is not null is read back from an optional field. -/
theorem Json.Record.optional_ofOption {α : Type} [JsonForm α] {r : Json.Record} {name : String}
    {x : Option α} (hlookup : r.fields.lookup name = some (ofOption x))
    (hnull : ∀ a : α, encode a ≠ .null) (h : ∀ a, x = some a → ReadsBack a) :
    r.optional name = some x := by
  rw [Json.Record.optional, hlookup]
  cases x with
  | none => rfl
  | some a =>
      split
      · next heq => exact absurd (Option.some.inj heq) (hnull a)
      · next heq =>
          rw [← Option.some.inj heq]
          exact congrArg (Option.map some) (h a rfl).decode
      · next heq => cases heq

end

open JsonForm Json

theorem Json.natBelow?_nat {bound n : Nat} (h : n < bound) : (Json.nat n).natBelow? bound = some n :=
  if_pos h

theorem Json.map_natBelow?_nat {α : Type} {make : Nat → α} {bound n : Nat} {a : α}
    (h : n < bound) (hmake : make n = a) : ((Json.nat n).natBelow? bound).map make = some a := by
  rw [natBelow?_nat h, Option.map_some, hmake]

theorem Json.map_integerIn?_integer {α : Type} {make : Int → α} {low high i : Int} {a : α}
    (hlow : low ≤ i) (hhigh : i ≤ high) (hmake : make i = a) :
    ((Json.integer i).integerIn? low high).map make = some a := by
  have hin : (Json.integer i).integerIn? low high = some i := if_pos ⟨hlow, hhigh⟩
  rw [hin, Option.map_some, hmake]

theorem JsonForm.ReadsBack.nat {n : Nat} (h : n < UInt64.size) : ReadsBack n where
  plain := isPlain_integer n
  decode := natBelow?_nat h

instance : LawfulJsonForm Bool where
  readsBack b := ⟨isPlain_bool b, rfl⟩

instance : LawfulJsonForm String where
  readsBack s := ⟨isPlain_text s, rfl⟩

instance : LawfulJsonForm UInt8 where
  readsBack n := ⟨isPlain_integer _, map_natBelow?_nat n.toNat_lt UInt8.ofNat_toNat⟩

instance : LawfulJsonForm UInt16 where
  readsBack n := ⟨isPlain_integer _, map_natBelow?_nat n.toNat_lt UInt16.ofNat_toNat⟩

instance : LawfulJsonForm UInt64 where
  readsBack n := ⟨isPlain_integer _, map_natBelow?_nat n.toNat_lt UInt64.ofNat_toNat⟩

instance : LawfulJsonForm (BitVec 32) where
  readsBack n := ⟨isPlain_integer _,
    map_natBelow?_nat n.isLt ((BitVec.ofNat_toNat _ n).trans n.setWidth_eq)⟩

instance : LawfulJsonForm Int8 where
  readsBack n := ⟨isPlain_integer _,
    map_integerIn?_integer n.minValue_le_toInt n.toInt_le (Int8.ofInt_toInt n)⟩

instance : LawfulJsonForm Int64 where
  readsBack n := ⟨isPlain_integer _,
    map_integerIn?_integer n.minValue_le_toInt n.toInt_le (Int64.ofInt_toInt n)⟩

section

variable {α : Type} [JsonForm α]

theorem JsonForm.ReadsBack.list {xs : List α} (h : ∀ x ∈ xs, ReadsBack x) : ReadsBack xs where
  plain := isPlain_array fun j hj => by
    obtain ⟨x, hx, rfl⟩ := List.mem_map.mp hj
    exact (h x hx).plain
  decode := by
    show (xs.map encode).mapM decode? = some xs
    induction xs with
    | nil => rfl
    | cons x xs ih =>
        obtain ⟨hx, hxs⟩ := List.forall_mem_cons.mp h
        rw [List.map_cons, List.mapM_cons, hx.decode, ih hxs]
        rfl

instance [LawfulJsonForm α] : LawfulJsonForm (List α) where
  readsBack _ := ReadsBack.list fun x _ => LawfulJsonForm.readsBack x

instance [LawfulJsonForm α] {n : Nat} : LawfulJsonForm (Vector α n) where
  readsBack xs := {
    plain := isPlain_encode xs.toList
    decode := by
      show ((decode? (encode xs.toList) : Option (List α)).bind fun l =>
        if h : l.toArray.size = n then some (⟨l.toArray, h⟩ : Vector α n) else none) = some xs
      rw [decode?_encode, Option.bind_some, dif_pos (by simp)]
      rfl }

end

end MachineCode
