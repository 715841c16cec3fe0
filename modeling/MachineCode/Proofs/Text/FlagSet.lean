import MachineCode.Mode
import MachineCode.Proofs.Text.Number
import MachineCode.X86.FlagEffects

/-!
# Flag sets read back

Written flags are covered step by step: at each name, the bits written so far
and the bits that are left make up the whole set. What no name covers is one
hexadecimal item. So the union of the items is the set that was written, and it
is enough that each item is read as the bits it was written for, which for the
names is a check of the list of names.
-/

namespace MachineCode.Text

/-- A text without blanks at its ends. -/
structure IsTrimmed (cs : List Char) : Prop where
  head : ∀ c ∈ cs.head?, isBlank c = false
  last : ∀ c ∈ cs.getLast?, isBlank c = false

theorem dropWhile_eq_self {cs : List Char} (h : ∀ c ∈ cs.head?, isBlank c = false) :
    cs.dropWhile isBlank = cs := by
  cases cs with
  | nil => rfl
  | cons c cs =>
      have hc := h c rfl
      exact List.dropWhile_cons_of_neg (by simp [hc])

theorem trim_cons_of_blank {c : Char} (h : isBlank c = true) (cs : List Char) :
    trim (c :: cs) = trim cs := by
  rw [trim, List.dropWhile_cons_of_pos h, trim]

/-- Blanks in front of a trimmed text and behind it are dropped. -/
theorem trim_pads {before item after : List Char} (hbefore : ∀ c ∈ before, isBlank c = true)
    (hafter : ∀ c ∈ after, isBlank c = true) (hitem : IsTrimmed item) :
    trim (before ++ item ++ after) = item := by
  have hback : ∀ c ∈ after.reverse, isBlank c = true := by simpa using hafter
  have hlast : ∀ c ∈ item.reverse.head?, isBlank c = false := by
    rw [List.head?_reverse]
    exact hitem.last
  rw [trim, List.append_assoc, List.dropWhile_append_of_pos hbefore]
  cases item with
  | nil =>
      have hnone : (after ++ []).dropWhile isBlank = [] := List.dropWhile_append_of_pos hafter
      rw [List.append_nil] at hnone
      rw [List.nil_append, hnone]
      rfl
  | cons c cs =>
      have hfront : (c :: cs ++ after).dropWhile isBlank = c :: cs ++ after :=
        dropWhile_eq_self hitem.head
      rw [hfront, List.reverse_append, List.dropWhile_append_of_pos hback,
        dropWhile_eq_self hlast, List.reverse_reverse]

namespace FlagNames

variable {sep : Char}

theorem pieces_ne_nil (sep : Char) (cs : List Char) : pieces sep cs ≠ [] := by
  cases cs with
  | nil => exact List.cons_ne_nil _ _
  | cons c cs =>
      rw [pieces]
      split
      · exact List.cons_ne_nil _ _
      · split <;> exact List.cons_ne_nil _ _

theorem pieces_of_not_mem {cs : List Char} (h : sep ∉ cs) : pieces sep cs = [cs] := by
  induction cs with
  | nil => rfl
  | cons c cs ih =>
      obtain ⟨hne, hcs⟩ := not_or.mp (mt List.mem_cons.mpr h)
      rw [pieces, if_neg (Ne.symm hne), ih hcs]

theorem pieces_append_cons {cs : List Char} (h : sep ∉ cs) (rest : List Char) :
    pieces sep (cs ++ sep :: rest) = cs :: pieces sep rest := by
  induction cs with
  | nil => rw [List.nil_append, pieces, if_pos rfl]
  | cons c cs ih =>
      obtain ⟨hne, hcs⟩ := not_or.mp (mt List.mem_cons.mpr h)
      rw [List.cons_append, pieces, if_neg (Ne.symm hne), ih hcs]

/-- A blank in front of a text is a blank in front of its first piece. -/
theorem map_trim_pieces_cons_of_blank {c : Char} (hblank : isBlank c = true) (hsep : c ≠ sep)
    (cs : List Char) : (pieces sep (c :: cs)).map trim = (pieces sep cs).map trim := by
  obtain ⟨p, ps, hps⟩ := List.exists_cons_of_ne_nil (pieces_ne_nil sep cs)
  rw [pieces, if_neg hsep, hps, List.map_cons, List.map_cons, trim_cons_of_blank hblank]

/-- Whether a text can be an item: it is not empty, and has neither separators nor blanks. -/
def IsItem (cs : List Char) : Prop :=
  cs ≠ [] ∧ ∀ c ∈ cs, c ≠ '|' ∧ isBlank c = false

-- Characters are finitely many, so the instance for the list has to be named.
instance (cs : List Char) : Decidable (IsItem cs) :=
  @instDecidableAnd _ _ inferInstance (List.decidableBAll _ cs)

theorem map_trim_pieces_intercalate {items : List (List Char)} (hne : items ≠ [])
    (h : ∀ item ∈ items, IsItem item) :
    (pieces '|' ([' ', '|', ' '].intercalate items)).map trim = items := by
  induction items with
  | nil => exact absurd rfl hne
  | cons item items ih =>
      obtain ⟨-, hchars⟩ := h item List.mem_cons_self
      have hsep : '|' ∉ item := fun hmem => (hchars _ hmem).1 rfl
      have htrimmed : IsTrimmed item :=
        ⟨fun c hc => (hchars c (List.mem_of_mem_head? hc)).2,
          fun c hc => (hchars c (List.mem_of_mem_getLast? hc)).2⟩
      have htrim (after : List Char) (hafter : ∀ c ∈ after, isBlank c = true) :
          trim (item ++ after) = item :=
        trim_pads (List.forall_mem_nil _) hafter htrimmed
      cases items with
      | nil =>
          have hitself : trim item = item := by simpa using htrim [] (by simp)
          rw [List.intercalate_singleton, pieces_of_not_mem hsep, List.map_singleton, hitself]
      | cons next items =>
          have hsep' : '|' ∉ item ++ [' '] := by simpa using hsep
          have hshape : [' ', '|', ' '].intercalate (item :: next :: items)
              = item ++ [' '] ++ '|' :: ' ' :: [' ', '|', ' '].intercalate (next :: items) := by
            simp [List.intercalate_cons_cons]
          rw [hshape, pieces_append_cons hsep', List.map_cons, htrim [' '] (by simp [isBlank]),
            map_trim_pieces_cons_of_blank rfl (by decide),
            ih (List.cons_ne_nil _ _) fun i hi => h i (List.mem_cons_of_mem _ hi)]

variable {w : Nat} {names : FlagNames w}

/-- Adds the bits of an item. -/
def addItem? (names : FlagNames w) (acc : Option (BitVec w)) (cs : List Char) :
    Option (BitVec w) := do
  return (← acc) ||| (← names.item? cs)

theorem toList_hex0x (n : Nat) : (hex0x n).toList = '0' :: 'x' :: Nat.toDigits 16 n := by
  rw [hex0x, String.toList_append, hex, String.toList_ofList, String.toList_ofList]
  rfl

theorem isItem_hex0x (n : Nat) : IsItem (hex0x n).toList := by
  refine ⟨toList_hex0x n ▸ List.cons_ne_nil _ _, ?_⟩
  have hdigit : ∀ d < 16, Nat.digitChar d ≠ '|' ∧ isBlank (Nat.digitChar d) = false := by decide
  intro c hc
  rw [toList_hex0x, List.mem_cons, List.mem_cons] at hc
  rcases hc with rfl | rfl | hc
  · decide
  · decide
  · obtain ⟨d, hd, rfl⟩ := mem_toDigits (by decide) hc
    exact hdigit d hd

theorem item?_hex0x (bits : BitVec w) : names.item? (hex0x bits.toNat).toList = some bits := by
  have hsign : ∀ more, Nat.toDigits 16 bits.toNat = '+' :: more → False := by
    intro more heq
    obtain ⟨d, hd, hplus⟩ := mem_toDigits (by decide) (heq ▸ List.mem_cons_self)
    revert d
    decide
  rw [toList_hex0x, item?, hexNumber?_toDigits]
  · simp
  · exact hsign

/-- Each name can be an item and is read as the flag that it is written for. -/
def Readable (names : FlagNames w) : Prop :=
  ∀ entry ∈ names, IsItem entry.1.toList ∧ names.item? entry.1.toList = some entry.2

instance (names : FlagNames w) : Decidable names.Readable :=
  inferInstanceAs (Decidable (∀ entry ∈ names, _))

variable {bits : BitVec w}

theorem isItem_of_mem_items (hnames : names.Readable) {item : String}
    (h : item ∈ names.items bits) : IsItem item.toList := by
  suffices ∀ more : FlagNames w, more ⊆ names → ∀ rest, item ∈ items.go bits more rest →
      IsItem item.toList from this names (List.Subset.refl _) bits h
  intro more hmore rest
  induction more generalizing rest with
  | nil =>
      intro hitem
      rw [items.go] at hitem
      split at hitem
      · exact absurd hitem List.not_mem_nil
      · exact List.mem_singleton.mp hitem ▸ isItem_hex0x _
  | cons entry more ih =>
      obtain ⟨hentry, hmore⟩ := List.cons_subset.mp hmore
      intro hitem
      rw [items.go] at hitem
      split at hitem
      · rcases List.mem_cons.mp hitem with rfl | hitem
        · exact (hnames entry hentry).1
        · exact ih hmore _ hitem
      · exact ih hmore _ hitem

/-- At each name, what has been written and what is left make up the set. -/
theorem foldl_addItem?_go (hnames : names.Readable) {more : FlagNames w} (hmore : more ⊆ names)
    {written rest : BitVec w} (h : written ||| rest = bits) :
    ((items.go bits more rest).map String.toList).foldl names.addItem? (some written)
      = some bits := by
  induction more generalizing written rest with
  | nil =>
      rw [items.go]
      split
      · next hrest =>
          rw [← h, hrest]
          exact congrArg some BitVec.or_zero.symm
      · next =>
          rw [List.map_singleton, List.foldl_cons, addItem?, item?_hex0x]
          exact congrArg some h
  | cons entry more ih =>
      obtain ⟨hentry, hmore⟩ := List.cons_subset.mp hmore
      rw [items.go]
      split
      · next hflag =>
          -- The flag is written, and its bits are no longer left.
          have hnext : written ||| entry.2 ||| (rest &&& ~~~entry.2) = bits := by
            have : entry.2 ||| (rest &&& ~~~entry.2) = entry.2 ||| rest := by
              ext i hi
              simp only [BitVec.getElem_or, BitVec.getElem_and, BitVec.getElem_not]
              cases entry.2[i] <;> simp
            rw [BitVec.or_assoc, this, BitVec.or_comm entry.2, ← BitVec.or_assoc, h, ← hflag.1]
            ext i hi
            simp only [BitVec.getElem_or, BitVec.getElem_and]
            cases bits[i] <;> simp
          rw [List.map_cons, List.foldl_cons, addItem?, (hnames entry hentry).2]
          exact ih hmore hnext
      · exact ih hmore h

/-- Every set of flags is read back from its text, with the bits that no name covers. -/
theorem parse?_print (hnames : names.Readable) (bits : BitVec w) :
    names.parse? (names.print bits) = some bits := by
  have hitems : ∀ item ∈ (names.items bits).map String.toList, IsItem item := by
    intro item hitem
    obtain ⟨s, hs, rfl⟩ := List.mem_map.mp hitem
    exact isItem_of_mem_items hnames hs
  have hunion : ((names.items bits).map String.toList).foldl names.addItem? (some 0)
      = some bits :=
    foldl_addItem?_go hnames (List.Subset.refl _) (BitVec.zero_or)
  have htext : (names.print bits).toList
      = [' ', '|', ' '].intercalate ((names.items bits).map String.toList) := by
    rw [print, String.toList_intercalate]
    rfl
  generalize (names.items bits).map String.toList = items at hitems hunion htext
  rw [parse?, htext]
  cases items with
  | nil => exact hunion
  | cons item items =>
      have hvisible : ([' ', '|', ' '].intercalate (item :: items)).all isBlank = false := by
        obtain ⟨hitem, hchars⟩ := hitems item List.mem_cons_self
        obtain ⟨c, cs, rfl⟩ := List.exists_cons_of_ne_nil hitem
        cases items <;> simp [List.intercalate_cons_cons, hchars]
      rw [hvisible, if_neg Bool.false_ne_true]
      rw [← map_trim_pieces_intercalate (List.cons_ne_nil item items) hitems, List.foldl_map]
        at hunion
      exact hunion

end FlagNames

end MachineCode.Text

namespace MachineCode

theorem Mode.readable_flagNames : Mode.flagNames.Readable := by
  decide +kernel

theorem Mode.ofText?_text (m : Mode) : Mode.ofText? m.text = some m := by
  rw [Mode.text, Mode.ofText?, Text.FlagNames.parse?_print Mode.readable_flagNames]
  rfl

theorem X86.FlagEffects.readable_flagNames : X86.FlagEffects.flagNames.Readable := by
  decide +kernel

theorem X86.FlagEffects.ofText?_text (e : X86.FlagEffects) :
    X86.FlagEffects.ofText? e.text = some e := by
  rw [X86.FlagEffects.text, X86.FlagEffects.ofText?,
    Text.FlagNames.parse?_print X86.FlagEffects.readable_flagNames]
  rfl

end MachineCode
