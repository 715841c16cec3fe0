import MachineCode.Proofs.Text.Number

/-!
# Compact numbers read back

A compact number is a single decimal digit, or `0x` and hexadecimal digits of which
the first is not zero. The grammar below grows a number by one digit at the end, as
the digits themselves are made, so by induction every number has exactly one text.
Reading is decided by the first two characters: no single digit is followed by an
`x`, and no number begins with a minus sign.

A signed word writes its magnitude. The least word has no positive counterpart: its
negation wraps around to itself, and the bits that this leaves, taken as an unsigned
word, are the magnitude all the same.
-/

namespace MachineCode.Text

variable {cs : List Char} {c : Char} {d n : Nat}

/-- The digits of hexadecimal text, each at the place of its value. -/
def hexDigits : List Char :=
  ['0', '1', '2', '3', '4', '5', '6', '7', '8', '9', 'a', 'b', 'c', 'd', 'e', 'f']

/-- The text is a number in lower-case hexadecimal, the first digit of which is not zero. -/
inductive IsHex : List Char → Nat → Prop where
  | first {c : Char} {d : Nat} (digit : hexDigits[d]? = some c) (pos : 0 < d) : IsHex [c] d
  | more {cs : List Char} {n : Nat} {c : Char} {d : Nat} (front : IsHex cs n)
      (digit : hexDigits[d]? = some c) : IsHex (cs ++ [c]) (n * 16 + d)

/-- The text is a number in compact form: decimal up to nine, hexadecimal above. -/
inductive IsCompact : List Char → Nat → Prop where
  | decimal {c : Char} {d : Nat} (digit : hexDigits[d]? = some c) (small : d ≤ 9) : IsCompact [c] d
  | hex {cs : List Char} {n : Nat} (digits : IsHex cs n) (large : 9 < n) :
      IsCompact ('0' :: 'x' :: cs) n

/-- The magnitude of a signed word, as an unsigned word. -/
def magnitude (v : Int64) : UInt64 :=
  if v < 0 then (-v).toUInt64 else v.toUInt64

/-- The text is a signed word in compact form: its magnitude, behind a minus sign if it is
negative. -/
inductive IsCompactSigned : List Char → Int64 → Prop where
  | nonnegative {cs : List Char} {v : Int64} (digits : IsCompact cs (magnitude v).toNat)
      (sign : 0 ≤ v) : IsCompactSigned cs v
  | negative {cs : List Char} {v : Int64} (digits : IsCompact cs (magnitude v).toNat)
      (sign : v < 0) : IsCompactSigned ('-' :: cs) v

theorem hexDigits_eq_some_iff : hexDigits[d]? = some c ↔ d < 16 ∧ c = Nat.digitChar d := by
  have hall : ∀ d < 16, hexDigits[d]? = some (Nat.digitChar d) := by decide
  constructor
  · intro h
    have hlt : d < 16 := (List.getElem?_eq_some_iff.mp h).1
    rw [hall d hlt] at h
    exact ⟨hlt, (Option.some.inj h).symm⟩
  · rintro ⟨hlt, rfl⟩
    exact hall d hlt

/-- A positive number has one hexadecimal text. -/
theorem isHex_iff : IsHex cs n ↔ 0 < n ∧ cs = Nat.toDigits 16 n := by
  constructor
  · intro h
    induction h with
    | first digit pos =>
        obtain ⟨hlt, rfl⟩ := hexDigits_eq_some_iff.mp digit
        exact ⟨pos, (Nat.toDigits_of_lt_base hlt).symm⟩
    | @more cs n c d front digit ih =>
        obtain ⟨hlt, rfl⟩ := hexDigits_eq_some_iff.mp digit
        obtain ⟨hpos, rfl⟩ := ih
        have hdigits := Nat.toDigits_append_toDigits (b := 16) (by decide) hpos hlt
        rw [Nat.toDigits_of_lt_base hlt, Nat.mul_comm] at hdigits
        exact ⟨by omega, hdigits⟩
  · rintro ⟨hpos, rfl⟩
    have hbase : 1 < 16 := by decide
    induction n using toDigits_induction hbase with
    | one d hd => exact .first (hexDigits_eq_some_iff.mpr ⟨hd, rfl⟩) hpos
    | more n d cs hn hd _ ih => exact .more (ih hn) (hexDigits_eq_some_iff.mpr ⟨hd, rfl⟩)

theorem toList_compact_small (h : n ≤ 9) : (compact n).toList = [Nat.digitChar n] := by
  rw [compact, if_pos h, String.toList_ofList, Nat.toDigits_of_lt_base (by omega)]

theorem toList_compact_large (h : 9 < n) :
    (compact n).toList = '0' :: 'x' :: Nat.toDigits 16 n := by
  rw [compact, if_neg (Nat.not_le.mpr h), hex0x, hex, String.toList_append]
  exact congrArg (['0', 'x'] ++ ·) String.toList_ofList

/-- Every number has one compact text. -/
theorem isCompact_iff : IsCompact cs n ↔ cs = (compact n).toList := by
  constructor
  · intro h
    cases h with
    | decimal digit small =>
        rw [toList_compact_small small, (hexDigits_eq_some_iff.mp digit).2]
    | hex digits large => rw [toList_compact_large large, (isHex_iff.mp digits).2]
  · rintro rfl
    by_cases h : n ≤ 9
    · rw [toList_compact_small h]
      exact .decimal (hexDigits_eq_some_iff.mpr ⟨by omega, rfl⟩) h
    · have hlarge : 9 < n := Nat.lt_of_not_le h
      rw [toList_compact_large hlarge]
      exact .hex (isHex_iff.mpr ⟨by omega, rfl⟩) hlarge

theorem compactSigned_negative {i : Int} (h : i < 0) :
    (compactSigned i).toList = '-' :: (compact i.natAbs).toList := by
  rw [compactSigned, if_pos h, String.toList_append]
  rfl

theorem compactSigned_nonnegative {i : Int} (h : 0 ≤ i) : compactSigned i = compact i.natAbs :=
  if_neg (Int.not_lt.mpr h)

/-- Negation gives the magnitude also of the least word, where it wraps around. -/
theorem toNat_magnitude (v : Int64) : (magnitude v).toNat = v.toInt.natAbs := by
  have hvalue : v.toInt = if 2 * v.toUInt64.toNat < UInt64.size then (v.toUInt64.toNat : Int)
      else v.toUInt64.toNat - UInt64.size := BitVec.toInt_eq_toNat_cond v.toBitVec
  have hlt : v.toUInt64.toNat < UInt64.size := v.toUInt64.toNat_lt_size
  have hneg : (-v).toUInt64.toNat = (UInt64.size - v.toUInt64.toNat) % UInt64.size := by
    rw [Int64.toUInt64_neg, UInt64.toNat_neg]
  rw [UInt64.size] at hvalue hlt hneg
  rw [magnitude]
  split
  · next h =>
      rw [Int64.lt_iff_toInt_lt, Int64.toInt_zero] at h
      omega
  · next h =>
      rw [Int64.lt_iff_toInt_lt, Int64.toInt_zero] at h
      omega

/-- Every signed word has one compact text. -/
theorem isCompactSigned_iff {v : Int64} :
    IsCompactSigned cs v ↔ cs = (compactSigned v.toInt).toList := by
  have hnegative : v < 0 ↔ v.toInt < 0 := Int64.lt_iff_toInt_lt
  have hnonnegative : 0 ≤ v ↔ 0 ≤ v.toInt := Int64.le_iff_toInt_le
  constructor
  · intro h
    cases h with
    | nonnegative digits sign =>
        rw [compactSigned_nonnegative (hnonnegative.mp sign), ← toNat_magnitude]
        exact isCompact_iff.mp digits
    | negative digits sign =>
        rw [compactSigned_negative (hnegative.mp sign), ← toNat_magnitude]
        exact congrArg ('-' :: ·) (isCompact_iff.mp digits)
  · rintro rfl
    by_cases h : v.toInt < 0
    · rw [compactSigned_negative h, ← toNat_magnitude]
      exact .negative (isCompact_iff.mpr rfl) (hnegative.mpr h)
    · have hpos : 0 ≤ v.toInt := Int.not_lt.mp h
      rw [compactSigned_nonnegative hpos, ← toNat_magnitude]
      exact .nonnegative (isCompact_iff.mpr rfl) (hnonnegative.mpr hpos)

/-- Reads a number in compact form. -/
def compactNumber? : List Char → Option Nat
  | '0' :: 'x' :: digits => hexNumber? digits
  | digits => decimalNumber? digits

/-- Reads a number in compact form with a minus sign in front or none. -/
def compactInteger? : List Char → Option Int
  | '-' :: digits => (compactNumber? digits).map fun n : Nat => -(n : Int)
  | digits => (compactNumber? digits).map fun n : Nat => (n : Int)

/-- Reads an unsigned word. -/
def unsigned? (s : String) : Option UInt64 :=
  (compactNumber? s.toList).bind fun n => if n < UInt64.size then some (.ofNat n) else none

/-- Reads a signed word. -/
def signed? (s : String) : Option Int64 :=
  (compactInteger? s.toList).bind fun i =>
    if Int64.minValue.toInt ≤ i ∧ i ≤ Int64.maxValue.toInt then some (.ofInt i) else none

theorem decimalNumber?_digit : ∀ d ≤ 9, decimalNumber? [Nat.digitChar d] = some d := by decide

theorem compactNumber?_compact (n : Nat) : compactNumber? (compact n).toList = some n := by
  by_cases h : n ≤ 9
  · rw [toList_compact_small h, compactNumber?, decimalNumber?_digit n h]
    intro digits htwo
    cases (List.cons.inj htwo).2
  · rw [toList_compact_large (Nat.lt_of_not_le h), compactNumber?, hexNumber?_toDigits]

/-- No number begins with a minus sign. -/
theorem compact_ne_minus (n : Nat) (cs : List Char) : (compact n).toList ≠ '-' :: cs := by
  intro h
  by_cases hn : n ≤ 9
  · rw [toList_compact_small hn, List.cons.injEq] at h
    have hall : ∀ d ≤ 9, Nat.digitChar d ≠ '-' := by decide
    exact hall n hn h.1
  · rw [toList_compact_large (Nat.lt_of_not_le hn)] at h
    cases h

theorem compactInteger?_compactSigned (i : Int) :
    compactInteger? (compactSigned i).toList = some i := by
  by_cases h : i < 0
  · rw [compactSigned_negative h, compactInteger?, compactNumber?_compact, Option.map_some,
      Int.ofNat_natAbs_of_nonpos (Int.le_of_lt h), Int.neg_neg]
  · have hpos : 0 ≤ i := Int.not_lt.mp h
    rw [compactSigned_nonnegative hpos, compactInteger?, compactNumber?_compact, Option.map_some,
      Int.natAbs_of_nonneg hpos]
    exact compact_ne_minus _

theorem unsigned?_compact (v : UInt64) : unsigned? (compact v.toNat) = some v := by
  rw [unsigned?, compactNumber?_compact, Option.bind_some, if_pos v.toNat_lt_size,
    UInt64.ofNat_toNat]

theorem signed?_compactSigned (v : Int64) : signed? (compactSigned v.toInt) = some v := by
  rw [signed?, compactInteger?_compactSigned, Option.bind_some,
    if_pos ⟨Int64.minValue_le_toInt v, Int64.toInt_le v⟩, Int64.ofInt_toInt]

/-- A text of values that loses nothing: it has its form and no other text of the value has, the
value is read back from it, and so different values have different texts. -/
structure WritesFaithfully {α : Type} (write : α → String) (read? : String → Option α)
    (IsText : List Char → α → Prop) : Prop where
  text_iff : ∀ s v, IsText s.toList v ↔ s = write v
  reads : ∀ v, read? (write v) = some v
  injective : Function.Injective write

theorem writesFaithfully {α : Type} {write : α → String} {read? : String → Option α}
    {IsText : List Char → α → Prop} (htext : ∀ cs v, IsText cs v ↔ cs = (write v).toList)
    (hread : ∀ v, read? (write v) = some v) : WritesFaithfully write read? IsText where
  text_iff s v := (htext _ _).trans String.toList_inj
  reads := hread
  injective := by
    intro v w h
    have hv := hread v
    rw [h, hread w] at hv
    exact (Option.some.inj hv).symm

/-- Compact text is faithful, of unsigned and of signed words, and its sign is that of the word. -/
theorem compact_faithful :
    WritesFaithfully (fun v : UInt64 => compact v.toNat) unsigned?
        (fun cs v => IsCompact cs v.toNat) ∧
      WritesFaithfully (fun v : Int64 => compactSigned v.toInt) signed? IsCompactSigned ∧
      ∀ v w : Int64, v < 0 → 0 ≤ w → compactSigned v.toInt ≠ compactSigned w.toInt := by
  have hsigned : WritesFaithfully (fun v : Int64 => compactSigned v.toInt) signed?
      IsCompactSigned := writesFaithfully (fun _ _ => isCompactSigned_iff) signed?_compactSigned
  refine ⟨writesFaithfully (fun _ _ => isCompact_iff) unsigned?_compact, hsigned, ?_⟩
  intro v w hv hw heq
  obtain rfl := hsigned.injective heq
  exact Int64.not_lt.mpr hw hv

-- the least word, whose negation wraps around
example : compactSigned Int64.minValue.toInt = "-0x8000000000000000" := by decide

end MachineCode.Text
