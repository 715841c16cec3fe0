import MachineCode.Proofs.Walk
import MachineCode.Proofs.Text.Number
import MachineCode.Proofs.Vocabulary
import MachineCode.Proofs.X86.QuadRegisters

/-!
# The columns of a listing

A line has three columns: an address, the bytes, and the text. Neither of the
first two has a blank or a colon in it, so a line can be cut at the first colon
that has a blank behind it and at the next blank after that, provided that there
is a blank between the bytes and the text.

That blank is only the filling of the column of the bytes, which is 24 characters
wide. Eleven bytes leave two blanks, twelve leave none. So the columns of an item
are read back exactly if it has at most eleven bytes; of longer instructions the
text begins right behind the last byte, and no way of cutting at blanks tells
the two apart.
-/

namespace MachineCode

namespace Text

/-- What stands before and behind the first place where a separator stands. -/
def cut? (separator : List Char) : List Char → Option (List Char × List Char)
  | [] => none
  | c :: cs =>
    if separator.isPrefixOf (c :: cs) then some ([], (c :: cs).drop separator.length)
    else (cut? separator cs).map fun pair => (c :: pair.1, pair.2)

/-- As many blanks. -/
def blanks (n : Nat) : String :=
  String.ofList (List.replicate n ' ')

variable {s : Char} {separator before behind cs : List Char}

theorem cut?_here (separator behind : List Char) :
    cut? (s :: separator) (s :: separator ++ behind) = some ([], behind) := by
  have hhere : (s :: separator).isPrefixOf (s :: separator ++ behind) = true :=
    List.isPrefixOf_iff_prefix.mpr (List.prefix_append _ behind)
  rw [List.cons_append] at hhere ⊢
  rw [cut?, if_pos hhere, ← List.cons_append, List.drop_left]

/-- Nothing is cut before the first character of the separator. -/
theorem cut?_append (hbefore : s ∉ before) (separator cs : List Char) :
    cut? (s :: separator) (before ++ cs) =
      (cut? (s :: separator) cs).map fun pair => (before ++ pair.1, pair.2) := by
  induction before with
  | nil => exact Option.map_id_apply.symm
  | cons c before ih =>
      obtain ⟨hc, hmore⟩ := not_or.mp (List.mem_cons.not.mp hbefore)
      have hnot : ¬(s :: separator).isPrefixOf (c :: (before ++ cs)) = true := by
        rw [List.isPrefixOf_cons_cons, Bool.and_eq_true, beq_iff_eq]
        exact fun hboth => hc hboth.1
      rw [List.cons_append, cut?, if_neg hnot, ih hmore, Option.map_map]
      rfl

theorem cut?_between (hbefore : s ∉ before) (separator behind : List Char) :
    cut? (s :: separator) (before ++ (s :: separator ++ behind)) = some (before, behind) := by
  rw [cut?_append hbefore, cut?_here, Option.map_some]
  exact congrArg (fun first => some (first, behind)) (List.append_nil before)

/-- A text that begins otherwise has something before its first blank. -/
theorem ne_nil_of_cut? {c : Char} (hc : c ≠ s) (hcut : cut? [s] (c :: cs) = some (before, behind)) :
    before ≠ [] := by
  rw [cut?, if_neg (by simpa using Ne.symm hc), Option.map_eq_some_iff] at hcut
  obtain ⟨pair, -, heq⟩ := hcut
  rw [← (Prod.mk.inj heq).1]
  exact List.cons_ne_nil c pair.1

end Text

open Text

/-- What the columns of a line show. -/
structure Columns where
  address : UInt64
  bytes : List UInt8
  text : String
deriving DecidableEq

/-- Reads the columns of a line. It is cut at the first colon with a blank behind it and at the next
blank, and what the column of the bytes has left of its width is dropped. -/
def Columns.ofLine? (line : String) : Option Columns := do
  let (address, columns) ← cut? [':', ' '] line.toList
  let (digits, padded) ← cut? [' '] columns
  let bytes ← Bytes.ofHex? (String.ofList digits)
  let address ← hexNumber? address
  return { address := .ofNat address, bytes
           text := String.ofList (padded.drop (23 - digits.length)) }

namespace Item

/-- The bytes that the item covers. -/
def bytes : Item → List UInt8
  | instruction i => i.bytes
  | skipped _ _ byte => [byte]

/-- What the item is called in a listing. -/
def text (dataMnemonic : String) : Item → String
  | instruction i => i.text
  | skipped _ _ byte => dataMnemonic ++ " 0x" ++ hexPadded 2 byte.toNat

/-- The columns of the item. -/
def columns (dataMnemonic : String) (item : Item) : Columns where
  address := item.address
  bytes := item.bytes
  text := item.text dataMnemonic

/-- How the line of an item is put together, and when its columns can be told apart. -/
structure HasLine (dataMnemonic : String) (item : Item) (line : String) : Prop where
  line_eq : line = hexPadded 8 item.address.toNat ++ ": " ++ Bytes.toHex item.bytes ++
    blanks (24 - 2 * item.bytes.length) ++ item.text dataMnemonic
  length_pos : 1 ≤ item.bytes.length
  length_le : item.bytes.length ≤ 15
  reads_iff : Columns.ofLine? line = some (item.columns dataMnemonic) ↔ item.bytes.length ≤ 11

end Item

theorem digitChar_ne {c : Char} (hc : c = ':' ∨ c = ' ') : ∀ d < 16, Nat.digitChar d ≠ c := by
  rcases hc with rfl | rfl <;> decide

theorem not_mem_hexPadded {c : Char} (hc : c = ':' ∨ c = ' ') (width n : Nat) :
    c ∉ (hexPadded width n).toList := by
  rw [hexPadded, String.toList_ofList, List.mem_append]
  rintro (hmem | hmem)
  · exact digitChar_ne hc 0 (by decide) (List.eq_of_mem_replicate hmem).symm
  · obtain ⟨d, hd, rfl⟩ := mem_toDigits (by decide) hmem
    exact digitChar_ne hc d hd rfl

namespace Bytes

variable {bs : List UInt8} {cs : List Char}

theorem not_mem_toHex {c : Char} (hc : c = ':' ∨ c = ' ') (bs : List UInt8) :
    c ∉ (toHex bs).toList := by
  rw [toHex, String.toList_ofList, List.mem_flatMap]
  rintro ⟨b, -, hmem⟩
  have hb := b.toNat_lt
  simp only [hexOfByte, List.mem_cons, List.not_mem_nil, or_false] at hmem
  rcases hmem with hmem | hmem
  · exact digitChar_ne hc _ (by omega) hmem.symm
  · exact digitChar_ne hc _ (by omega) hmem.symm

theorem length_toHex (bs : List UInt8) : (toHex bs).toList.length = 2 * bs.length := by
  rw [toHex, String.toList_ofList]
  induction bs with
  | nil => rfl
  | cons b bs ih =>
      rw [List.flatMap_cons, List.length_append, ih, List.length_cons]
      show 2 + _ = _
      omega

theorem go_ofHex?_flatMap (bs : List UInt8) :
    ofHex?.go (bs.flatMap hexOfByte) = some bs := by
  induction bs with
  | nil => rfl
  | cons b bs ih =>
      have hb := b.toNat_lt
      have hbyte : UInt8.ofNat (16 * (b.toNat / 16) + b.toNat % 16) = b := by
        rw [Nat.div_add_mod, UInt8.ofNat_toNat]
      show ofHex?.go (Nat.digitChar (b.toNat / 16) :: Nat.digitChar (b.toNat % 16) ::
        bs.flatMap hexOfByte) = _
      rw [ofHex?.go, hexDigit?_digitChar _ (by omega), hexDigit?_digitChar _ (by omega), ih]
      exact congrArg (fun byte => some (byte :: bs)) hbyte

/-- The bytes are read back from their digits. -/
theorem ofHex?_toHex (bs : List UInt8) : ofHex? (toHex bs) = some bs := by
  rw [ofHex?, toHex, String.toList_ofList]
  exact go_ofHex?_flatMap bs

/-- There are two digits to a byte. -/
theorem length_of_go (h : ofHex?.go cs = some bs) : cs.length = 2 * bs.length := by
  induction cs using ofHex?.go.induct generalizing bs with
  | case1 =>
      cases h
      rfl
  | case2 => cases h
  | case3 a b cs ih =>
      simp only [ofHex?.go, Option.bind_eq_bind, Option.bind_eq_some_iff, Option.pure_def,
        Option.some.injEq] at h
      obtain ⟨hi, -, lo, -, more, hmore, rfl⟩ := h
      rw [List.length_cons, List.length_cons, ih hmore, List.length_cons]
      omega

end Bytes

section

variable {address : UInt64} {bytes : List UInt8} {text : String}

/-- The line of an address, some bytes and a text. -/
theorem listingLine_eq (address : UInt64) (bytes : List UInt8) (text : String) :
    Instruction.listingLine address bytes text =
      hexPadded 8 address.toNat ++ ": " ++ Bytes.toHex bytes ++ blanks (24 - 2 * bytes.length) ++
        text := by
  rw [Instruction.listingLine, padRight, ← String.length_toList, Bytes.length_toHex, blanks,
    ← String.append_assoc]

/-- The first cut of a line leaves the column of the bytes and the text. -/
theorem cut?_listingLine (address : UInt64) (bytes : List UInt8) (text : String) :
    cut? [':', ' '] (Instruction.listingLine address bytes text).toList =
      some ((hexPadded 8 address.toNat).toList,
        (Bytes.toHex bytes).toList ++
          (List.replicate (24 - 2 * bytes.length) ' ' ++ text.toList)) := by
  have hline : (Instruction.listingLine address bytes text).toList =
      (hexPadded 8 address.toNat).toList ++ ([':', ' '] ++
        ((Bytes.toHex bytes).toList ++
          (List.replicate (24 - 2 * bytes.length) ' ' ++ text.toList))) := by
    simp only [listingLine_eq, blanks, String.toList_append, String.toList_ofList,
      List.append_assoc]
    rfl
  rw [hline, cut?_between (not_mem_hexPadded (.inl rfl) 8 _)]

/-- With a blank behind the bytes, the columns are read back. -/
theorem ofLine?_listingLine (hbytes : bytes.length ≤ 11) :
    Columns.ofLine? (Instruction.listingLine address bytes text) = some ⟨address, bytes, text⟩ := by
  have hblanks : List.replicate (24 - 2 * bytes.length) ' ' =
      [' '] ++ List.replicate (23 - 2 * bytes.length) ' ' := by
    rw [show 24 - 2 * bytes.length = (23 - 2 * bytes.length) + 1 by omega, List.replicate_succ]
    rfl
  have hpadded : (List.replicate (23 - 2 * bytes.length) ' ' ++ text.toList).drop
      (23 - (Bytes.toHex bytes).toList.length) = text.toList := by
    rw [Bytes.length_toHex, List.drop_left' List.length_replicate]
  simp only [Columns.ofLine?, cut?_listingLine, hblanks, List.append_assoc,
    cut?_between (Bytes.not_mem_toHex (.inr rfl) bytes), Option.bind_eq_bind, Option.bind_some,
    String.ofList_toList, Bytes.ofHex?_toHex, hexNumber?_hexPadded, hpadded, UInt64.ofNat_toNat,
    Option.pure_def]

/-- Without one, the first word of the text counts as digits. -/
theorem ofLine?_listingLine_ne {c : Char} {cs : List Char} (hbytes : 12 ≤ bytes.length)
    (htext : text.toList = c :: cs) (hc : c ≠ ' ') :
    Columns.ofLine? (Instruction.listingLine address bytes text) ≠
      some ⟨address, bytes, text⟩ := by
  have hblanks : List.replicate (24 - 2 * bytes.length) ' ' = [] := by
    rw [show 24 - 2 * bytes.length = 0 by omega]
    rfl
  intro hread
  simp only [Columns.ofLine?, cut?_listingLine, hblanks, List.nil_append,
    cut?_append (Bytes.not_mem_toHex (.inr rfl) bytes), htext, Option.bind_eq_bind,
    Option.bind_some, Option.bind_eq_some_iff, Option.map_eq_some_iff, Option.pure_def,
    Option.some.injEq] at hread
  obtain ⟨_, ⟨⟨word, rest⟩, hcut, rfl⟩, found, hfound, number, -, hcolumns⟩ := hread
  obtain rfl : found = bytes := congrArg Columns.bytes hcolumns
  have hdigits := Bytes.length_of_go hfound
  rw [String.toList_ofList, List.length_append, Bytes.length_toHex] at hdigits
  dsimp only at hdigits
  exact ne_nil_of_cut? hc hcut (List.eq_nil_of_length_eq_zero (by omega))

end

/-! ## Texts of instructions

Where the bytes leave no blank behind them, the line goes on with the first character
of the text, and only a blank there could still part the two columns. The text begins
with the name of the instruction, so this is a matter of the list of names. -/

namespace X86

/-- The names begin with other characters than blanks; only the absent mnemonic has none. -/
theorem names_begin :
    (Mnemonic.names.toList.tail.all fun name =>
      isAscii name && (asciiChars name).head?.any (· != ' ')) = true := by
  decide +kernel

theorem size_names : Mnemonic.names.size = 1097 + 1 := by
  decide +kernel

theorem names_table : ∀ row ∈ table, .absent ∉ row.naming.mnemonics := by
  decide +kernel

theorem Mnemonic.name_begins {m : Mnemonic} (hm : m ≠ .absent) :
    ∃ c cs, (Vocabulary.name m).toList = c :: cs ∧ c ≠ ' ' := by
  obtain ⟨k, hindex⟩ : ∃ k, m.ctorIdx = k + 1 := by
    refine Nat.exists_eq_add_one_of_ne_zero fun hzero => hm ?_
    rw [← Mnemonic.ofNat_ctorIdx m, hzero]
    rfl
  have hk : k + 1 < Mnemonic.names.size := by
    rw [size_names, ← hindex]
    exact m.ctorIdx_lt
  have hname : Vocabulary.name m = Mnemonic.names[k + 1] := by
    show Mnemonic.names.getD m.ctorIdx "" = _
    rw [hindex, Array.getD_eq_getD_getElem?, Array.getElem?_eq_getElem hk, Option.getD_some]
  have hmem : Mnemonic.names[k + 1] ∈ Mnemonic.names.toList.tail := by
    generalize Mnemonic.names = names at hk ⊢
    have htail : k < names.toList.tail.length := by
      rw [List.length_tail, Array.length_toList]
      omega
    rw [← Array.getElem_toList, ← List.getElem_tail htail]
    exact List.getElem_mem htail
  have hbegin := List.all_eq_true.mp names_begin _ hmem
  rw [Bool.and_eq_true, Option.any_eq_true] at hbegin
  obtain ⟨hascii, c, hhead, hc⟩ := hbegin
  rw [hname, toList_eq_asciiChars hascii]
  obtain ⟨cs, hcs⟩ := List.head?_eq_some_iff.mp hhead
  exact ⟨c, cs, hcs, bne_iff_ne.mp hc⟩

/-- The text of an instruction begins with its name. -/
theorem text_begins {e : Engine} {bytes : List UInt8} {offset next : Nat} {address : UInt64}
    {i : Instruction} (he : e.architecture = .x86)
    (h : e.decodeOne bytes offset address = .ok (i, next)) :
    ∃ c cs, i.text.toList = c :: cs ∧ c ≠ ' ' := by
  obtain ⟨f, body, t, hframe, -, hi⟩ := body_of_decodeOne he h
  obtain ⟨-, hf⟩ := readFrame_chosen hframe
  have hpresent : f.mnemonic ≠ .absent := fun habsent =>
    names_table f.row (mem_candidates.mp hf.mem).1 (habsent ▸ f.mnemonic_mem)
  obtain ⟨c, cs, hname, hc⟩ := Mnemonic.name_begins hpresent
  have hmnemonic : i.mnemonic.name = Vocabulary.name f.mnemonic := by
    rw [hi]
    rfl
  rw [Instruction.text, hmnemonic]
  split
  · exact ⟨c, cs, hname, hc⟩
  · exact ⟨c, cs ++ " ".toList ++ i.operandText.toList, by simp [hname], hc⟩

end X86

namespace Item

variable {dataMnemonic : String} {item : Item}

theorem line_eq_listingLine (dataMnemonic : String) (item : Item) :
    item.line dataMnemonic =
      Instruction.listingLine item.address item.bytes (item.text dataMnemonic) := by
  cases item <;> rfl

/-- An item whose text begins with a name, or that has at most eleven bytes, has the line that is
described. -/
theorem hasLine (hpos : 1 ≤ item.bytes.length) (hle : item.bytes.length ≤ 15)
    (hbegins : item.bytes.length ≤ 11 ∨
      ∃ c cs, (item.text dataMnemonic).toList = c :: cs ∧ c ≠ ' ') :
    item.HasLine dataMnemonic (item.line dataMnemonic) where
  line_eq := by rw [line_eq_listingLine, listingLine_eq]
  length_pos := hpos
  length_le := hle
  reads_iff := by
    rw [line_eq_listingLine]
    refine ⟨fun hread => ?_, fun hshort => ofLine?_listingLine hshort⟩
    rcases hbegins with hshort | ⟨c, cs, htext, hc⟩
    · exact hshort
    · exact Nat.le_of_not_lt fun hlong => ofLine?_listingLine_ne hlong htext hc hread

end Item

namespace Engine

variable {e : Engine} {bytes : List UInt8} {start address : UInt64} {offset next stop : Nat}
  {i : Instruction} {items : List Item}

theorem hasLine_of_decodeOne (dataMnemonic : String)
    (h : e.decodeOne bytes offset address = .ok (i, next)) :
    (Item.instruction i).HasLine dataMnemonic i.line := by
  obtain ⟨taken, -, -, -, ht, -⟩ := takes_of_decodeOne h
  obtain ⟨hspells, hmin, hmax⟩ := stages_takes ht
  rw [← hspells.bytes_eq] at hmin hmax
  have hpos := Nat.le_trans (minLength_pos e.architecture) hmin
  cases he : e.architecture with
  | x86 =>
      rw [he] at hmax
      exact Item.hasLine hpos hmax (.inr (X86.text_begins he h))
  | mips =>
      rw [he] at hmax
      exact Item.hasLine hpos (Nat.le_trans hmax (by decide))
        (.inl (Nat.le_trans hmax (by decide)))

theorem hasLine_of_trueAt (dataMnemonic : String) {item : Item}
    (h : e.TrueAt bytes start offset item) :
    item.HasLine dataMnemonic (item.line dataMnemonic) := by
  cases item with
  | instruction i => exact hasLine_of_decodeOne dataMnemonic h
  | skipped =>
      exact Item.hasLine (Nat.le_refl 1) (Nat.le_add_left 1 14) (.inl (Nat.le_add_left 1 10))

theorem Tiles.forall_hasLine (dataMnemonic : String)
    (h : e.Tiles bytes start offset items stop) :
    ∀ item ∈ items, item.HasLine dataMnemonic (item.line dataMnemonic) := by
  induction items generalizing offset with
  | nil => exact fun _ hmem => absurd hmem List.not_mem_nil
  | cons item items ih =>
      obtain ⟨-, -, htrue, hrest⟩ := h
      exact List.forall_mem_cons.mpr ⟨hasLine_of_trueAt dataMnemonic htrue, ih hrest⟩

/-- There is one line to an item. It is put together from the address, a colon and a blank, the
bytes, as many blanks as their column has left, and the text; cut at the colon and at the next
blank, it gives back the address, the bytes and the text of its item exactly if these are at most
eleven bytes. -/
theorem listing_columns (e : Engine) (bytes : List UInt8) (start : UInt64) :
    let l := e.listing bytes start
    List.Forall₂ (fun item line => item.HasLine l.dataMnemonic line) l.items l.lines := by
  have hlines := (e.listing_isWalk bytes start).tiles.forall_hasLine
    (e.listing bytes start).dataMnemonic
  exact List.forall₂_map_right_iff.mpr (List.forall₂_same.mpr hlines)

/-- A `mov` of twelve bytes. -/
def longMov : List UInt8 :=
  [0x48, 0xc7, 0x84, 0xc8, 0x78, 0x56, 0x34, 0x12, 0x78, 0x56, 0x34, 0x12]

/-- Its text begins right behind the last byte, and the columns cannot be told apart. -/
theorem exists_joined_columns_mov :
    ∃ i line, (x86Of64.listing longMov 0x1000).items = [.instruction i] ∧
      (x86Of64.listing longMov 0x1000).lines = [line] ∧ i.bytes = longMov ∧
      i.text = "mov qword ptr [rax + rcx*8 + 0x12345678], 0x12345678" ∧
      line = "00001000: 48c784c87856341278563412" ++ i.text ∧
      (∀ k, line = hexPadded 8 i.address.toNat ++ ": " ++ Bytes.toHex i.bytes ++ blanks k ++
        i.text → k = 0) ∧
      Columns.ofLine? line ≠ some ⟨i.address, i.bytes, i.text⟩ := by
  have hread : (x86Of64.decodeOne longMov 0 0x1000).map
      (fun d => ((d.1.bytes, d.1.text, d.1.length), d.2)) = .ok ((longMov,
        "mov qword ptr [rax + rcx*8 + 0x12345678], 0x12345678", 12), 12) := by
    decide +kernel
  obtain ⟨i, next, hrun, hshown⟩ := exists_of_map hread
  simp only [Prod.mk.injEq] at hshown
  obtain ⟨⟨hbytes, htext, hlength⟩, rfl⟩ := hshown
  have haddress : i.address = 0x1000 := (address_of_decodeOne hrun).1
  have hwalk : Walk x86Of64 longMov 0x1000 x86Of64.options.limit? 0
      ((x86Of64.finished 12 none).push (.instruction i)) := by
    refine .decoded none_unspent (by decide) ?_ ?_
    · rw [hlength]
      exact hrun
    · rw [hlength]
      exact .atEnd none
  have hcolumns : hexPadded 8 i.address.toNat ++ ": " ++ Bytes.toHex i.bytes =
      "00001000: 48c784c87856341278563412" := by
    rw [haddress, hbytes]
    decide +kernel
  have hline : i.line = "00001000: 48c784c87856341278563412" ++ i.text := by
    have hnone : blanks (24 - 2 * i.bytes.length) = "" := by
      rw [hbytes]
      rfl
    rw [Instruction.line, listingLine_eq, hcolumns, hnone, String.append_empty]
  refine ⟨i, i.line, ?_, ?_, hbytes, htext, hline, fun k hblanks => ?_, fun hcut => ?_⟩
  · rw [← hwalk.eq_listing]
    rfl
  · rw [← hwalk.eq_listing]
    rfl
  · -- blanks would make the line longer
    have hlengths := congrArg String.length (hline.symm.trans hblanks)
    simp only [hcolumns, blanks, String.length_append, String.length_ofList,
      List.length_replicate] at hlengths
    omega
  · have hshort : i.bytes.length ≤ 11 := (hasLine_of_decodeOne "" hrun).reads_iff.mp hcut
    rw [hbytes] at hshort
    exact absurd hshort (by decide)

end Engine

end MachineCode
