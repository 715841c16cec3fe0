import MachineCode.Proofs.Text.FlagSet
import Mathlib.Algebra.Group.Nat.Defs
import Mathlib.Data.List.Induction
import Mathlib.Data.List.TakeWhile

/-!
# What flag texts denote

A flag text spells items: between the separators, without the blanks around them.
Every text spells exactly one row of items. An item denotes the bits of a flag with
its name, or the number that it writes in hexadecimal if that fits the word, and an
item that denotes nothing has one of four faults.

Reading joins the bits of all items and fails at any fault, so its result depends on
which items there are and on nothing else: neither their order nor how often one
stands there nor the blanks around it.
-/

namespace MachineCode.Text

/-- A text is an item with blanks around it, and the item is whole. -/
structure IsPadded (cs item : List Char) : Prop where
  pads : ∃ before after, (∀ c ∈ before, isBlank c = true) ∧ (∀ c ∈ after, isBlank c = true) ∧
    cs = before ++ item ++ after
  trimmed : IsTrimmed item
  whole : '|' ∉ item

theorem isBlank_of_mem_head? {cs : List Char} {c : Char}
    (h : c ∈ (cs.dropWhile isBlank).head?) : isBlank c = false := by
  rw [← List.find?_not_eq_head?_dropWhile] at h
  simpa using List.find?_some h

/-- What is left behind the first blanks is the trimmed text and the last blanks. -/
theorem dropWhile_eq_trim_append (cs : List Char) :
    ∃ after, (∀ c ∈ after, isBlank c = true) ∧ cs.dropWhile isBlank = trim cs ++ after := by
  refine ⟨((cs.dropWhile isBlank).reverse.takeWhile isBlank).reverse, fun c hc => ?_, ?_⟩
  · exact List.mem_takeWhile_imp (List.mem_reverse.mp hc)
  · rw [trim, ← List.reverse_append, List.takeWhile_append_dropWhile, List.reverse_reverse]

theorem exists_pads (cs : List Char) :
    ∃ before after, (∀ c ∈ before, isBlank c = true) ∧ (∀ c ∈ after, isBlank c = true) ∧
      cs = before ++ trim cs ++ after := by
  obtain ⟨after, hafter, hmiddle⟩ := dropWhile_eq_trim_append cs
  refine ⟨cs.takeWhile isBlank, after, fun c => List.mem_takeWhile_imp, hafter, ?_⟩
  rw [List.append_assoc, ← hmiddle, List.takeWhile_append_dropWhile]

theorem isTrimmed_trim (cs : List Char) : IsTrimmed (trim cs) where
  head := by
    intro c hc
    obtain ⟨after, -, hmiddle⟩ := dropWhile_eq_trim_append cs
    obtain ⟨rest, hrest⟩ := List.head?_eq_some_iff.mp hc
    have hfirst : c ∈ (cs.dropWhile isBlank).head? := by
      rw [hmiddle, hrest]
      rfl
    exact isBlank_of_mem_head? hfirst
  last := by
    intro c hc
    rw [trim, List.getLast?_reverse] at hc
    exact isBlank_of_mem_head? hc

theorem isPadded_trim {cs : List Char} (h : '|' ∉ cs) : IsPadded cs (trim cs) where
  pads := exists_pads cs
  trimmed := isTrimmed_trim cs
  whole := by
    obtain ⟨before, after, -, -, hsplit⟩ := exists_pads cs
    intro hmem
    rw [hsplit] at h
    exact h (List.mem_append_left _ (List.mem_append_right _ hmem))

theorem IsPadded.trim_eq {cs item : List Char} (h : IsPadded cs item) : trim cs = item := by
  obtain ⟨before, after, hbefore, hafter, rfl⟩ := h.pads
  exact trim_pads hbefore hafter h.trimmed

theorem IsPadded.not_mem {cs item : List Char} (h : IsPadded cs item) : '|' ∉ cs := by
  obtain ⟨before, after, hbefore, hafter, rfl⟩ := h.pads
  have hvisible : isBlank '|' = false := by decide
  intro hmem
  rcases List.mem_append.mp hmem with hmem | hmem
  · rcases List.mem_append.mp hmem with hmem | hmem
    · exact absurd (hbefore _ hmem) (by simp [hvisible])
    · exact h.whole hmem
  · exact absurd (hafter _ hmem) (by simp [hvisible])

namespace FlagNames

/-- The row of items that a text spells. -/
inductive Spells : List Char → List (List Char) → Prop where
  | last {cs item : List Char} (padded : IsPadded cs item) : Spells cs [item]
  | more {cs item rest : List Char} {items : List (List Char)} (padded : IsPadded cs item)
      (others : Spells rest items) : Spells (cs ++ '|' :: rest) (item :: items)

theorem Spells.eq_map_trim {cs : List Char} {items : List (List Char)} (h : Spells cs items) :
    items = (pieces '|' cs).map trim := by
  induction h with
  | last padded => rw [pieces_of_not_mem padded.not_mem, List.map_singleton, padded.trim_eq]
  | more padded _ ih =>
      rw [pieces_append_cons padded.not_mem, List.map_cons, padded.trim_eq, ih]

theorem spells_pieces (cs : List Char) : Spells cs ((pieces '|' cs).map trim) := by
  by_cases h : '|' ∈ cs
  · obtain ⟨front, rest, hsplit, hfront⟩ := List.eq_append_cons_of_mem h
    have hshorter : rest.length < cs.length := by
      rw [hsplit, List.length_append, List.length_cons]
      omega
    have hrest := spells_pieces rest
    rw [hsplit, pieces_append_cons hfront, List.map_cons]
    exact .more (isPadded_trim hfront) hrest
  · rw [pieces_of_not_mem h]
    exact .last (isPadded_trim h)
termination_by cs.length

/-- The text is a hexadecimal numeral of a number, in digits of either case. -/
inductive Numeral : List Char → Nat → Prop where
  | digit {c : Char} {d : Nat} (digit_eq : hexDigit? c = some d) : Numeral [c] d
  | more {cs : List Char} {n : Nat} {c : Char} {d : Nat} (front : Numeral cs n)
      (digit_eq : hexDigit? c = some d) : Numeral (cs ++ [c]) (n * 16 + d)

theorem Numeral.hexNumber?_eq {cs : List Char} {n : Nat} (h : Numeral cs n) :
    hexNumber? cs = some n := by
  suffices cs ≠ [] ∧ digits? hexDigit? 16 cs = some n by
    rw [hexNumber?, if_neg (by simpa using this.1), this.2]
  induction h with
  | @digit c d digit_eq =>
      rw [← List.nil_append [c], digits?_append_singleton, digit_eq]
      exact ⟨List.cons_ne_nil _ _, congrArg some (Nat.zero_add d)⟩
  | more front digit_eq ih =>
      rw [digits?_append_singleton, ih.2, digit_eq]
      exact ⟨List.append_ne_nil_of_right_ne_nil _ (List.cons_ne_nil _ _), rfl⟩

theorem numeral_of_digits? {cs : List Char} {n : Nat} (hne : cs ≠ [])
    (h : digits? hexDigit? 16 cs = some n) : Numeral cs n := by
  induction cs using List.reverseRecOn generalizing n with
  | nil => exact absurd rfl hne
  | append_singleton cs c ih =>
      rw [digits?_append_singleton, Option.bind_eq_some_iff] at h
      obtain ⟨m, hfront, hlast⟩ := h
      obtain ⟨d, hdigit, rfl⟩ := Option.map_eq_some_iff.mp hlast
      by_cases hcs : cs = []
      · subst hcs
        cases hfront
        rw [Nat.zero_mul, Nat.zero_add]
        exact .digit hdigit
      · exact .more (ih hcs hfront) hdigit

theorem hexNumber?_eq_some_iff {cs : List Char} {n : Nat} :
    hexNumber? cs = some n ↔ Numeral cs n := by
  refine ⟨fun h => ?_, Numeral.hexNumber?_eq⟩
  rw [hexNumber?] at h
  split at h
  · cases h
  · next hne => exact numeral_of_digits? (by simpa using hne) h

/-- A numeral with a plus sign in front or none. -/
def SignedNumeral (cs : List Char) (n : Nat) : Prop :=
  Numeral cs n ∨ ∃ digits, cs = '+' :: digits ∧ Numeral digits n

/-! ## What items denote

An item with the mark of a number in front is read as a number, and any other item as a
name. What it denotes and what is wrong with it are the two sides of this case split,
and each side has its iff. -/

variable {w : Nat} {names : FlagNames w} {cs : List Char} {bits : BitVec w}

/-- What an item denotes: a flag by its name, or a number that fits the word. -/
inductive Denotes (names : FlagNames w) : List Char → BitVec w → Prop where
  | name {s : String} {bits : BitVec w} (mem : (s, bits) ∈ names) : Denotes names s.toList bits
  | number {cs : List Char} {n : Nat} (numeral : SignedNumeral cs n) (fits : n < 2 ^ w) :
      Denotes names ('0' :: 'x' :: cs) (BitVec.ofNat w n)

/-- What can be wrong with an item. -/
inductive Faulty (names : FlagNames w) : List Char → Prop where
  | empty : Faulty names []
  | malformed {cs : List Char} (numeral : ¬ ∃ n, SignedNumeral cs n) :
      Faulty names ('0' :: 'x' :: cs)
  | overflow {cs : List Char} {n : Nat} (numeral : SignedNumeral cs n) (large : 2 ^ w ≤ n) :
      Faulty names ('0' :: 'x' :: cs)
  | unknown {cs : List Char} (unmarked : ∀ rest, cs ≠ '0' :: 'x' :: rest)
      (not_mem : ∀ entry ∈ names, entry.1.toList ≠ cs) : Faulty names cs

/-- A text without the plus sign that it may begin with. -/
def dropPlus : List Char → List Char
  | '+' :: more => more
  | cs => cs

theorem hexDigit?_of_mem {n : Nat} (h : Numeral cs n) : ∀ c ∈ cs, hexDigit? c ≠ none := by
  induction h with
  | digit digit_eq => simp [digit_eq]
  | more front digit_eq ih =>
      intro c hc
      rcases List.mem_append.mp hc with hc | hc
      · exact ih c hc
      · rw [List.mem_singleton.mp hc, digit_eq]
        exact Option.some_ne_none _

theorem numeral_dropPlus_iff {n : Nat} : Numeral (dropPlus cs) n ↔ SignedNumeral cs n := by
  unfold dropPlus
  split
  · next more =>
      refine ⟨fun h => .inr ⟨more, rfl, h⟩, ?_⟩
      rintro (h | ⟨digits, heq, h⟩)
      · exact absurd (by decide) (hexDigit?_of_mem h '+' List.mem_cons_self)
      · cases heq
        exact h
  · next hplain =>
      refine ⟨.inl, ?_⟩
      rintro (h | ⟨digits, heq, -⟩)
      · exact h
      · exact absurd heq (hplain digits)

theorem item?_number (names : FlagNames w) (cs : List Char) :
    names.item? ('0' :: 'x' :: cs) = (hexNumber? (dropPlus cs)).bind fun n =>
      if (BitVec.ofNat w n).toNat = n then some (BitVec.ofNat w n) else none := by
  unfold dropPlus
  split
  · next more =>
      rw [item?]
      cases hexNumber? more <;> rfl
  · next hplain =>
      rw [item?]
      · cases hexNumber? cs <;> rfl
      · exact hplain

theorem item?_name (hunmarked : ∀ rest, cs ≠ '0' :: 'x' :: rest) (hne : cs ≠ []) :
    names.item? cs = (names.find? fun entry => entry.1.toList == cs).map (·.2) := by
  rw [item?]
  · exact hne
  · exact hunmarked

theorem toNat_ofNat_eq_iff {n : Nat} : (BitVec.ofNat w n).toNat = n ↔ n < 2 ^ w := by
  rw [BitVec.toNat_ofNat]
  exact Nat.mod_eq_iff_lt (Nat.ne_of_gt (Nat.two_pow_pos w))

/-- An item is read as what it denotes. -/
theorem item?_eq_some_iff (hnames : names.Readable) :
    names.item? cs = some bits ↔ Denotes names cs bits := by
  constructor
  · intro h
    by_cases hmarked : ∃ rest, cs = '0' :: 'x' :: rest
    · obtain ⟨rest, rfl⟩ := hmarked
      rw [item?_number, Option.bind_eq_some_iff] at h
      obtain ⟨n, hn, h⟩ := h
      split at h
      · next hfits =>
          cases h
          exact .number (numeral_dropPlus_iff.mp (hexNumber?_eq_some_iff.mp hn))
            (toNat_ofNat_eq_iff.mp hfits)
      · cases h
    · by_cases hne : cs = []
      · subst hne
        cases h
      · rw [item?_name (not_exists.mp hmarked) hne] at h
        obtain ⟨⟨s, flag⟩, hfind, rfl⟩ := Option.map_eq_some_iff.mp h
        have hname : s.toList = cs := by simpa using List.find?_some hfind
        exact hname ▸ .name (List.mem_of_find?_eq_some hfind)
  · intro h
    cases h with
    | name mem => exact (hnames _ mem).2
    | number numeral fits =>
        rw [item?_number, hexNumber?_eq_some_iff.mpr (numeral_dropPlus_iff.mpr numeral),
          Option.bind_some, if_pos (toNat_ofNat_eq_iff.mpr fits)]

/-- An item is refused for one of the four faults. -/
theorem item?_eq_none_iff : names.item? cs = none ↔ Faulty names cs := by
  constructor
  · intro h
    by_cases hmarked : ∃ rest, cs = '0' :: 'x' :: rest
    · obtain ⟨rest, rfl⟩ := hmarked
      rw [item?_number] at h
      cases hn : hexNumber? (dropPlus rest) with
      | none =>
          refine .malformed fun ⟨n, hnumeral⟩ => ?_
          rw [hexNumber?_eq_some_iff.mpr (numeral_dropPlus_iff.mpr hnumeral)] at hn
          cases hn
      | some n =>
          rw [hn, Option.bind_some] at h
          split at h
          · cases h
          · next hlarge =>
              exact .overflow (numeral_dropPlus_iff.mp (hexNumber?_eq_some_iff.mp hn))
                (Nat.le_of_not_lt (mt toNat_ofNat_eq_iff.mpr hlarge))
    · by_cases hne : cs = []
      · subst hne
        exact .empty
      · rw [item?_name (not_exists.mp hmarked) hne, Option.map_eq_none_iff,
          List.find?_eq_none] at h
        exact .unknown (not_exists.mp hmarked) fun entry hentry heq =>
          h entry hentry (beq_iff_eq.mpr heq)
  · intro h
    cases h with
    | empty => rfl
    | malformed numeral =>
        rw [item?_number]
        cases hn : hexNumber? (dropPlus _) with
        | none => rfl
        | some n =>
            exact absurd ⟨n, numeral_dropPlus_iff.mp (hexNumber?_eq_some_iff.mp hn)⟩ numeral
    | overflow numeral large =>
        rw [item?_number, hexNumber?_eq_some_iff.mpr (numeral_dropPlus_iff.mpr numeral),
          Option.bind_some, if_neg (mt toNat_ofNat_eq_iff.mp (Nat.not_lt.mpr large))]
    | unknown unmarked not_mem =>
        by_cases hne : cs = []
        · subst hne
          rfl
        · rw [item?_name unmarked hne, Option.map_eq_none_iff, List.find?_eq_none]
          exact fun entry hentry heq => not_mem entry hentry (eq_of_beq heq)

theorem foldl_addItem?_none (items : List (List Char)) :
    items.foldl names.addItem? none = none := by
  induction items with
  | nil => rfl
  | cons item items ih => exact ih

/-- Reading joins the bits of all items to those that there are, if every item has bits. -/
theorem foldl_addItem?_eq_some_iff {items : List (List Char)} {acc : BitVec w} :
    items.foldl names.addItem? (some acc) = some bits ↔
      (∀ item ∈ items, ∃ b, names.item? item = some b) ∧
        ∀ i, bits.getLsbD i = true ↔ acc.getLsbD i = true ∨
          ∃ item ∈ items, ∃ b, names.item? item = some b ∧ b.getLsbD i = true := by
  induction items generalizing acc with
  | nil =>
      simp only [List.foldl_nil, Option.some.injEq, List.not_mem_nil, false_and, exists_false,
        or_false, IsEmpty.forall_iff, implies_true, true_and]
      refine ⟨fun h i => by rw [h], fun h => ?_⟩
      exact BitVec.eq_of_getLsbD_eq fun i _ => (Bool.eq_iff_iff.mpr (h i)).symm
  | cons item items ih =>
      rw [List.foldl_cons, List.forall_mem_cons]
      cases hitem : names.item? item with
      | none =>
          have hstop : names.addItem? (some acc) item = none := by
            rw [addItem?, hitem]
            rfl
          rw [hstop, foldl_addItem?_none]
          constructor
          · intro h
            cases h
          · rintro ⟨⟨⟨b, hb⟩, -⟩, -⟩
            cases hb
      | some b =>
          have hstep : names.addItem? (some acc) item = some (acc ||| b) := by
            rw [addItem?, hitem]
            rfl
          rw [hstep, ih]
          simp only [BitVec.getLsbD_or, Bool.or_eq_true, List.mem_cons, or_and_right, exists_or,
            exists_eq_left, hitem, Option.some.injEq, exists_eq_left', exists_eq', true_and,
            or_assoc]

theorem foldl_addItem?_eq_none_iff {items : List (List Char)} {acc : BitVec w} :
    items.foldl names.addItem? (some acc) = none ↔ ∃ item ∈ items, names.item? item = none := by
  induction items generalizing acc with
  | nil => simp
  | cons item items ih =>
      rw [List.foldl_cons, addItem?]
      cases hitem : names.item? item with
      | none => simp [foldl_addItem?_none, hitem]
      | some b =>
          show items.foldl names.addItem? (some (acc ||| b)) = none ↔ _
          simp [ih, hitem]

variable {s : String} {items : List (List Char)}

theorem parse?_eq_foldl (hs : blankText s = false) (h : Spells s.toList items) :
    names.parse? s = items.foldl names.addItem? (some 0) := by
  rw [blankText] at hs
  rw [parse?, hs, if_neg Bool.false_ne_true, h.eq_map_trim, List.foldl_map]
  rfl

theorem parse?_blank (hs : blankText s = true) : names.parse? s = some 0 :=
  if_pos hs

/-- What is read is the union of what the items denote. -/
theorem parse?_eq_some_iff (hnames : names.Readable) (hs : blankText s = false)
    (h : Spells s.toList items) :
    names.parse? s = some bits ↔ (∀ item ∈ items, ∃ b, Denotes names item b) ∧
      ∀ i, bits.getLsbD i = true ↔
        ∃ item ∈ items, ∃ b, Denotes names item b ∧ b.getLsbD i = true := by
  rw [parse?_eq_foldl hs h, foldl_addItem?_eq_some_iff]
  simp only [item?_eq_some_iff hnames]
  have hzero (i : Nat) : (0 : BitVec w).getLsbD i = true ↔ False := by simp
  simp only [hzero, false_or]

theorem parse?_eq_none_iff (h : Spells s.toList items) :
    names.parse? s = none ↔ blankText s = false ∧ ∃ item ∈ items, Faulty names item := by
  cases hs : blankText s with
  | true => simp [parse?_blank hs]
  | false =>
      rw [parse?_eq_foldl hs h, foldl_addItem?_eq_none_iff]
      simp only [item?_eq_none_iff, true_and]

/-- Texts with the same items are read alike. -/
theorem parse?_congr {s' : String} {items' : List (List Char)} (h : Spells s.toList items)
    (h' : Spells s'.toList items') (hblank : blankText s = blankText s')
    (hsame : ∀ item, item ∈ items ↔ item ∈ items') : names.parse? s = names.parse? s' := by
  cases hs : blankText s with
  | true => rw [parse?_blank hs, parse?_blank (hblank ▸ hs)]
  | false =>
      rw [parse?_eq_foldl hs h, parse?_eq_foldl (hblank ▸ hs) h']
      refine Option.ext fun bits => ?_
      simp only [foldl_addItem?_eq_some_iff, hsame]

/-- How a kind of flag sets is written and read. -/
structure ReadsUnions (names : FlagNames w) : Prop where
  /-- Every set is read back from its text. -/
  text : ∀ bits, names.parse? (names.print bits) = some bits
  /-- A text of blanks is the empty set. -/
  blank : ∀ s, blankText s = true → names.parse? s = some 0
  /-- Any other text is the union of what its items denote, if each of them denotes something. -/
  union : ∀ s items bits, blankText s = false → Spells s.toList items →
    (names.parse? s = some bits ↔ (∀ item ∈ items, ∃ b, Denotes names item b) ∧
      ∀ i, bits.getLsbD i = true ↔
        ∃ item ∈ items, ∃ b, Denotes names item b ∧ b.getLsbD i = true)
  /-- It is refused if one of them is at fault, and for no other reason. -/
  failure : ∀ s items, Spells s.toList items →
    (names.parse? s = none ↔ blankText s = false ∧ ∃ item ∈ items, Faulty names item)
  /-- The order of the items, their number and the blanks around them make no difference. -/
  insensitive : ∀ s s' items items', Spells s.toList items → Spells s'.toList items' →
    blankText s = blankText s' → (∀ item, item ∈ items ↔ item ∈ items') →
    names.parse? s = names.parse? s'

theorem Readable.readsUnions (hnames : names.Readable) : names.ReadsUnions where
  text := parse?_print hnames
  blank := fun _ => parse?_blank
  union := fun _ _ _ hs h => parse?_eq_some_iff hnames hs h
  failure := fun _ _ h => parse?_eq_none_iff h
  insensitive := fun _ _ _ _ h h' hblank hsame => parse?_congr h h' hblank hsame

end FlagNames

end MachineCode.Text

namespace MachineCode

/-- Every mode and every set of effects is read back from its text, whatever bits are set. Both are
read as unions of items, and every text spells exactly one row of items. -/
theorem flagTexts_read :
    (∀ m : Mode, Mode.ofText? m.text = some m) ∧
      (∀ e : X86.FlagEffects, X86.FlagEffects.ofText? e.text = some e) ∧
      Mode.flagNames.ReadsUnions ∧ X86.FlagEffects.flagNames.ReadsUnions ∧
      ∀ cs, ∃! items, Text.FlagNames.Spells cs items := by
  refine ⟨Mode.ofText?_text, X86.FlagEffects.ofText?_text, Mode.readable_flagNames.readsUnions,
    X86.FlagEffects.readable_flagNames.readsUnions, fun cs => ?_⟩
  exact ⟨_, Text.FlagNames.spells_pieces cs, fun items h => h.eq_map_trim⟩

end MachineCode
