import MachineCode.Document.Instruction
import MachineCode.Proofs.Specificity
import Mathlib.Data.List.Nodup

/-!
# Vocabularies are read back by their identifiers

A member is found by its document identifier because the vocabulary lists every
member and no two have one identifier. That the identifiers differ is a check of
the whole list; names of instructions are compared by numbers that are made of
their bytes, and pairs are parted by the remainders of these numbers.
-/

namespace MachineCode

/-- A vocabulary that lists all its members and tells them apart by their identifiers. -/
class LawfulVocabulary (α : Type) [Vocabulary α] : Prop where
  mem_all : ∀ a : α, a ∈ Vocabulary.absent :: Vocabulary.all
  tag_injective : Function.Injective (Vocabulary.tag : α → String)

namespace Vocabulary

variable {α : Type} [Vocabulary α]

theorem ofTag?_tag [LawfulVocabulary α] (a : α) : ofTag? (tag a) = some a := by
  have hfound : (ofTag? (tag a) : Option α).isSome := by
    rw [ofTag?, List.find?_isSome]
    exact ⟨a, LawfulVocabulary.mem_all a, beq_self_eq_true _⟩
  obtain ⟨b, hb⟩ := Option.isSome_iff_exists.mp hfound
  have htag : (tag b == tag a) = true := by
    rw [ofTag?] at hb
    exact List.find?_some (p := fun b => tag b == tag a) hb
  rw [hb, LawfulVocabulary.tag_injective (eq_of_beq htag)]

end Vocabulary

/-- Whether all bytes of a text are ASCII. -/
def isAscii (s : String) : Bool :=
  s.toByteArray.data.toList.all (· < 128)

/-- The characters whose codes are the bytes of a text. -/
def asciiChars (s : String) : List Char :=
  s.toByteArray.data.toList.map fun b => Char.ofNat b.toNat

theorem bytes_eq_flatMap (s : String) :
    s.toByteArray.data.toList = s.toList.flatMap String.utf8EncodeChar := by
  conv_lhs => rw [← String.ofList_toList (s := s)]
  show (List.toByteArray _).data.toList = _
  simp

theorem map_utf8EncodeChar {c : Char} (h : ∀ b ∈ String.utf8EncodeChar c, b < 128) :
    (String.utf8EncodeChar c).map (fun b => Char.ofNat b.toNat) = [c] := by
  revert h
  fun_cases String.utf8EncodeChar c with
  | case1 v hv =>
      intro _
      have hlt : c.toNat ≤ 127 := hv
      have hmod : c.toNat % 256 = c.toNat := Nat.mod_eq_of_lt (by omega)
      simp [v, hmod]
  | case2 | case3 | case4 =>
      -- The first of several bytes has its top bit set.
      intro h
      have := UInt8.lt_iff_toNat_lt.mp (h _ List.mem_cons_self)
      simp only [UInt8.toNat_ofNat', UInt8.reduceToNat] at this
      omega

theorem toList_eq_asciiChars {s : String} (h : isAscii s = true) : s.toList = asciiChars s := by
  rw [isAscii, bytes_eq_flatMap] at h
  rw [asciiChars, bytes_eq_flatMap]
  generalize s.toList = cs at h
  induction cs with
  | nil => rfl
  | cons c cs ih =>
      rw [List.flatMap_cons, List.all_append, Bool.and_eq_true] at h
      rw [List.flatMap_cons, List.map_append, map_utf8EncodeChar (by simpa using h.1), ← ih h.2]
      rfl

/-- The number that characters make as digits. -/
def codeOf (cs : List Char) : Nat :=
  cs.foldl (fun n c => 256 * n + c.toNat) 0

/-- Whether texts differ in pairs, by their numbers. Only numbers with one remainder are
compared. -/
def allDiffer (texts : List (List Char)) : Bool :=
  allPairsByKey (· % 4093) (· != ·) 7 (texts.map codeOf)

theorem nodup_of_allDiffer {texts : List (List Char)} (h : allDiffer texts = true) :
    texts.Nodup := by
  have hcodes : (texts.map codeOf).Nodup := by
    refine (pairwise_of_allPairsByKey h).imp fun {m n} hcheck heq => ?_
    subst heq
    exact bne_iff_ne.mp (hcheck rfl) rfl
  exact hcodes.of_map

namespace Vocabulary

variable {α : Type} [Vocabulary α]

theorem tag_injective_of_allDiffer (hmem : ∀ a : α, a ∈ absent :: all)
    (h : allDiffer ((absent :: all).map fun a : α => asciiChars (tag a)) = true) :
    Function.Injective (tag : α → String) := fun a b htag =>
  List.inj_on_of_nodup_map (nodup_of_allDiffer h) (hmem a) (hmem b) (congrArg asciiChars htag)

section

variable {index : α → Nat} {ofIndex : Nat → α} {n : Nat}

/-- An enumeration lists its first member and those with the following numbers. -/
theorem mem_enumeration (hinv : ∀ a, ofIndex (index a) = a) (habsent : index absent = 0)
    (hlt : ∀ a, index a < n + 1) (hall : all = (List.range n).map fun i => ofIndex (i + 1))
    (a : α) : a ∈ absent :: all := by
  have ha := hinv a
  cases hindex : index a with
  | zero =>
      rw [← ha, hindex, ← habsent, hinv]
      exact List.mem_cons_self
  | succ i =>
      have hi : i < n := by have := hlt a; omega
      rw [← ha, hindex, hall]
      exact List.mem_cons_of_mem _ (List.mem_map_of_mem (List.mem_range.mpr hi))

theorem lawful_of_enumeration (hinv : ∀ a, ofIndex (index a) = a)
    (habsent : index absent = 0) (hlt : ∀ a, index a < n + 1)
    (hall : all = (List.range n).map fun i => ofIndex (i + 1))
    (h : allDiffer ((absent :: all).map fun a : α => asciiChars (tag a)) = true) :
    LawfulVocabulary α where
  mem_all := mem_enumeration hinv habsent hlt hall
  tag_injective := tag_injective_of_allDiffer (mem_enumeration hinv habsent hlt hall) h

/-- What identifiers are spelled like, given the names from the absent member on. -/
def spellings (spellChars : List Char → List Char) (names : List String) : List (List Char) :=
  "Invalid".toList :: names.tail.map fun s => spellChars (asciiChars s)

/-- Identifiers that are spelled from names differ if the spellings do. -/
theorem tag_injective_of_names [DecidableEq α] (hinv : ∀ a, ofIndex (index a) = a)
    (habsent : index absent = 0) (hlt : ∀ a, index a < n + 1) {names : Array String}
    (hsize : names.size = n + 1) (hascii : names.toList.all isAscii = true) {spell : String → String}
    {spellChars : List Char → List Char} (hspell : ∀ s, (spell s).toList = spellChars s.toList)
    (htag : ∀ a, tag a = if a = absent then "Invalid" else spell (names.getD (index a) ""))
    (h : allDiffer (spellings spellChars names.toList) = true) :
    Function.Injective (tag : α → String) := by
  have hplace (a : α) : (spellings spellChars names.toList)[index a]? = some (tag a).toList := by
    by_cases heq : a = absent
    · rw [htag, if_pos heq, heq, habsent]
      rfl
    · obtain ⟨i, hindex⟩ : ∃ i, index a = i + 1 := by
        refine Nat.exists_eq_add_one_of_ne_zero fun hzero => heq ?_
        rw [← hinv a, hzero, ← habsent, hinv]
      have hi : i + 1 < names.size := by have := hlt a; omega
      have hname : isAscii names[i + 1] = true :=
        List.all_eq_true.mp hascii _ (Array.getElem_mem_toList hi)
      rw [htag, if_neg heq, hindex, hspell, Array.getD_eq_getD_getElem?,
        Array.getElem?_eq_getElem hi, Option.getD_some, toList_eq_asciiChars hname]
      simp [spellings, hi]
  intro a b hab
  have hbound : index a < (spellings spellChars names.toList).length :=
    (List.getElem?_eq_some_iff.mp (hplace a)).1
  have hindex : index a = index b :=
    (List.getElem?_inj hbound (nodup_of_allDiffer h)).mp (by rw [hplace a, hplace b, hab])
  rw [← hinv a, ← hinv b, hindex]

end

end Vocabulary

/-- Puts a text in upper case at its beginning. -/
def capitalizeChars : List Char → List Char
  | [] => []
  | c :: cs => c.toUpper :: cs

theorem toList_capitalize (s : String) : (capitalize s).toList = capitalizeChars s.toList := by
  rw [capitalize]
  cases s.toList <;> simp [capitalizeChars]

/-- The parts of a text between separators, each with an upper-case beginning. -/
def camelChars (isSeparator : Char → Bool) (start : Bool) : List Char → List Char
  | [] => []
  | c :: cs =>
    if isSeparator c then camelChars isSeparator true cs
    else (if start then c.toUpper else c) :: camelChars isSeparator false cs

theorem toList_camel (isSeparator : Char → Bool) (s : String) :
    (camel isSeparator s).toList = camelChars isSeparator true s.toList := by
  suffices ∀ start cs out, (camel.go isSeparator start cs out).toList
      = out.toList ++ camelChars isSeparator start cs from this true s.toList ""
  intro start cs
  induction cs generalizing start with
  | nil => intro out; simp [camel.go, camelChars]
  | cons c cs ih =>
      intro out
      rw [camel.go, camelChars]
      split
      · exact ih true out
      · rw [ih false]
        simp

open Vocabulary

theorem X86.Mnemonic.ctorIdx_lt (m : X86.Mnemonic) : m.ctorIdx < 1097 + 1 := by
  cases m <;> decide

theorem X86.Mnemonic.allDiffer_spellings :
    allDiffer (spellings capitalizeChars X86.Mnemonic.names.toList) = true := by
  decide +kernel

instance : LawfulVocabulary X86.Mnemonic where
  mem_all := mem_enumeration X86.Mnemonic.ofNat_ctorIdx rfl X86.Mnemonic.ctorIdx_lt rfl
  tag_injective := tag_injective_of_names X86.Mnemonic.ofNat_ctorIdx rfl
    X86.Mnemonic.ctorIdx_lt (by decide +kernel) (by decide +kernel) toList_capitalize
    (fun _ => rfl) X86.Mnemonic.allDiffer_spellings

theorem Mips.Mnemonic.ctorIdx_lt (m : Mips.Mnemonic) : m.ctorIdx < 319 + 1 := by
  cases m <;> decide

theorem Mips.Mnemonic.allDiffer_spellings :
    allDiffer (spellings (camelChars (· == '.') true) Mips.Mnemonic.names.toList) = true := by
  decide +kernel

instance : LawfulVocabulary Mips.Mnemonic where
  mem_all := mem_enumeration Mips.Mnemonic.ofNat_ctorIdx rfl Mips.Mnemonic.ctorIdx_lt rfl
  tag_injective := tag_injective_of_names Mips.Mnemonic.ofNat_ctorIdx rfl
    Mips.Mnemonic.ctorIdx_lt (by decide +kernel) (by decide +kernel) (toList_camel _)
    (fun _ => rfl) Mips.Mnemonic.allDiffer_spellings

instance : LawfulVocabulary Group :=
  lawful_of_enumeration Group.ofNat_ctorIdx rfl (fun g => by cases g <;> decide) rfl
    (by decide +kernel)

instance : LawfulVocabulary X86.SseCondition :=
  lawful_of_enumeration X86.SseCondition.ofNat_ctorIdx rfl (fun p => by cases p <;> decide) rfl
    (by decide +kernel)

instance : LawfulVocabulary X86.AvxCondition :=
  lawful_of_enumeration X86.AvxCondition.ofNat_ctorIdx rfl (fun p => by cases p <;> decide) rfl
    (by decide +kernel)

instance : LawfulVocabulary X86.XopCondition :=
  lawful_of_enumeration X86.XopCondition.ofNat_ctorIdx rfl (fun p => by cases p <;> decide) rfl
    (by decide +kernel)

instance : LawfulVocabulary X86.RoundingMode :=
  lawful_of_enumeration X86.RoundingMode.ofNat_ctorIdx rfl (fun p => by cases p <;> decide) rfl
    (by decide +kernel)

theorem mem_bitVectors {w : Nat} (b : BitVec w) : b ∈ bitVectors w := by
  rw [bitVectors, Nat.one_shiftLeft]
  exact List.mem_map.mpr ⟨b.toNat, List.mem_range.mpr b.isLt, by simp⟩

theorem Mips.Register.mem_all (r : Mips.Register) : r ∈ (absent :: all : List Mips.Register) := by
  show r ∈ Mips.Register.absent :: Mips.Register.all
  cases r <;>
    simp only [Mips.Register.all, List.mem_cons, List.mem_append, List.mem_map_of_mem,
      mem_bitVectors, true_or, or_true]

instance : LawfulVocabulary Mips.Register where
  mem_all := Mips.Register.mem_all
  tag_injective := tag_injective_of_allDiffer Mips.Register.mem_all (by decide +kernel)

/-- The low bytes are listed in two parts, before and behind the second bytes. -/
theorem X86.Register.byte_mem (n : BitVec 4) :
    X86.Register.byte n ∈ ((bitVectors 4).take 4).map X86.Register.byte
      ∨ X86.Register.byte n ∈ ((bitVectors 4).drop 4).map X86.Register.byte := by
  have h : n ∈ (bitVectors 4).take 4 ++ (bitVectors 4).drop 4 := by
    rw [List.take_append_drop]
    exact mem_bitVectors n
  exact (List.mem_append.mp h).imp List.mem_map_of_mem List.mem_map_of_mem

theorem X86.Register.mem_all (r : X86.Register) : r ∈ (absent :: all : List X86.Register) := by
  show r ∈ X86.Register.absent :: X86.Register.all
  cases r with
  | byte n =>
      delta X86.Register.all
      simp only [List.mem_cons, List.mem_append]
      rcases X86.Register.byte_mem n with h | h <;> simp only [h, true_or, or_true]
  | _ =>
      delta X86.Register.all
      simp only [List.mem_cons, List.mem_append, List.mem_map_of_mem,
        mem_bitVectors, List.mem_finRange, true_or, or_true]

instance : LawfulVocabulary X86.Register where
  mem_all := X86.Register.mem_all
  tag_injective := tag_injective_of_allDiffer X86.Register.mem_all (by decide +kernel)

end MachineCode
