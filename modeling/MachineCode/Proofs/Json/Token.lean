import MachineCode.Json.Token
import MachineCode.Proofs.Text.Number

/-!
# Tokens read back

Each token is read back from its written form, whatever follows, as long as the
form says where it ends. Strings and punctuation do; a number goes on as far as
its characters do, so what follows must not continue it. A string is read in two
steps, and so is the proof: the escapes give pieces, and the pieces of a text
join to that text because a character is never half of a pair.
-/

namespace MachineCode.Json

/-- The characters that are escaped with a letter, and the letters. -/
def letters : List (Char × Char) :=
  [('"', '"'), ('\\', '\\'), ('\x08', 'b'), ('\t', 't'), ('\n', 'n'), ('\x0c', 'f'), ('\r', 'r')]

theorem escape_letter : ∀ entry ∈ letters,
    escape entry.1 = ['\\', entry.2] ∧ escaped? entry.2 = some entry.1 ∧ entry.2 ≠ 'u' := by
  decide

/-- What a written character is read as: a control character without a letter is a unit. -/
def pieceOf (c : Char) : Piece :=
  if c ∈ letters.map Prod.fst then .char c
  else if c.toNat < 0x20 then .unit c.toNat
  else .char c

theorem escape_of_not_letter {c : Char} (h : c ∉ letters.map Prod.fst) :
    escape c = if c.toNat < 0x20 then ['\\', 'u'] ++ (Text.hexPadded 4 c.toNat).toList
      else [c] := by
  simp only [letters, List.map_cons, List.map_nil, List.mem_cons, List.not_mem_nil, or_false,
    not_or] at h
  obtain ⟨h₁, h₂, h₃, h₄, h₅, h₆, h₇⟩ := h
  rw [escape, if_neg h₁, if_neg h₂, if_neg h₃, if_neg h₄, if_neg h₅, if_neg h₆, if_neg h₇]

theorem pieces?_escape_append (c : Char) {cs rest : List Char} {ps : List Piece}
    (h : pieces? cs = some (ps, rest)) :
    pieces? (escape c ++ cs) = some (pieceOf c :: ps, rest) := by
  by_cases hletter : c ∈ letters.map Prod.fst
  · obtain ⟨⟨c, e⟩, hmem, rfl⟩ := List.mem_map.mp hletter
    obtain ⟨hescape, hread, hu⟩ := escape_letter _ hmem
    rw [pieceOf, if_pos hletter, hescape, List.cons_append, List.singleton_append, pieces?, hread,
      h]
    · rfl
    · intro _ _ _ _ _ heq
      exact absurd heq hu
  rw [pieceOf, if_neg hletter, escape_of_not_letter hletter]
  by_cases hcontrol : c.toNat < 0x20
  · -- The padded number of a control character has four digits.
    have hlen : (Text.hexPadded 4 c.toNat).toList.length = 4 :=
      Text.length_hexPadded ((Nat.length_toDigits_le_iff (by decide) (by decide)).mpr
        (Nat.lt_trans hcontrol (by decide)))
    obtain ⟨a, b, d, e, hdigits⟩ : ∃ a b d e, (Text.hexPadded 4 c.toNat).toList = [a, b, d, e] := by
      match hdigits : (Text.hexPadded 4 c.toNat).toList, hlen with
      | [a, b, d, e], _ => exact ⟨a, b, d, e, rfl⟩
    have hnumber := Text.hexNumber?_hexPadded 4 c.toNat
    rw [hdigits] at hnumber
    rw [if_pos hcontrol, if_pos hcontrol, hdigits]
    show pieces? ('\\' :: 'u' :: a :: b :: d :: e :: cs) = _
    rw [pieces?, hnumber, h]
    rfl
  · have hquote : c ≠ '"' := fun heq => hletter (heq ▸ by decide)
    have hslash : c ≠ '\\' := fun heq => hletter (heq ▸ by decide)
    rw [if_neg hcontrol, if_neg hcontrol, List.singleton_append, pieces?,
      if_neg (not_or.mpr ⟨hslash, hcontrol⟩), h]
    · rfl
    · exact hquote
    all_goals
      intros
      exact absurd ‹c = '\\'› hslash

theorem pieces?_quoted (cs rest : List Char) :
    pieces? (cs.flatMap escape ++ '"' :: rest) = some (cs.map pieceOf, rest) := by
  induction cs with
  | nil => rw [List.flatMap_nil, List.nil_append, pieces?, List.map_nil]
  | cons c cs ih => rw [List.flatMap_cons, List.append_assoc, pieces?_escape_append c ih,
      List.map_cons]

theorem join?_unit {u : Nat} (hhigh : isHighHalf u = false) (hlow : isLowHalf u = false)
    (ps : List Piece) : join? (.unit u :: ps) = (join? ps).map (Char.ofNat u :: ·) := by
  match ps with
  | .unit v :: ps => rw [join?, hhigh, hlow, if_neg Bool.false_ne_true, if_neg Bool.false_ne_true]
  | [] | .char _ :: _ => simp [join?, hhigh, hlow]

theorem join?_map_pieceOf (cs : List Char) : join? (cs.map pieceOf) = some cs := by
  induction cs with
  | nil => rfl
  | cons c cs ih =>
      rw [List.map_cons, pieceOf]
      split
      · rw [join?, ih]
        rfl
      · split
        · next hcontrol =>
            have hhigh : isHighHalf c.toNat = false := by simp [isHighHalf]; omega
            have hlow : isLowHalf c.toNat = false := by simp [isLowHalf]; omega
            rw [join?_unit hhigh hlow, ih, Char.ofNat_toNat]
            rfl
        · rw [join?, ih]
          rfl

/-- Whether a number that stands in front ends here. -/
def EndsNumber (rest : List Char) : Prop :=
  ∀ c, rest.head? = some c → isDigit c = false ∧ c ∉ ['.', 'e', 'E']

theorem isDigit_digitChar : ∀ d < 10, isDigit (Nat.digitChar d) = true := by decide

theorem digits?_append {cs rest : List Char} (hcs : ∀ c ∈ cs, isDigit c = true) (hne : cs ≠ [])
    (hrest : EndsNumber rest) : digits? (cs ++ rest) = some (digitValues cs, rest) := by
  have hend : rest.takeWhile isDigit = [] ∧ rest.dropWhile isDigit = rest := by
    cases rest with
    | nil => exact ⟨rfl, rfl⟩
    | cons c rest =>
        have := (hrest c rfl).1
        exact ⟨List.takeWhile_cons_of_neg (by simp [this]),
          List.dropWhile_cons_of_neg (by simp [this])⟩
  rw [digits?, List.takeWhile_append_of_pos hcs, List.dropWhile_append_of_pos hcs, hend.1, hend.2,
    List.append_nil, if_neg (by simpa using hne)]

/-- The value of a digit is the digit. -/
theorem digitValue_digitChar : ∀ d < 10, (Nat.digitChar d).toNat - '0'.toNat = d := by decide

theorem ofDigits_digitValues_toDigits (n : Nat) :
    ofDigits (digitValues (Nat.toDigits 10 n)) = n := by
  induction n using Text.toDigits_induction (by decide : 1 < 10) with
  | one d hd =>
      show 0 * 10 + ((Nat.digitChar d).toNat - '0'.toNat) = d
      rw [digitValue_digitChar d hd, Nat.zero_mul, Nat.zero_add]
  | more n d cs _ hd _ ih =>
      rw [ofDigits] at ih
      rw [ofDigits, digitValues, List.map_append, List.foldl_append, ← digitValues, ih]
      show n * 10 + ((Nat.digitChar d).toNat - '0'.toNat) = n * 10 + d
      rw [digitValue_digitChar d hd]

/-- The digits of a number begin with zero only if that is the only one. -/
theorem head?_digitValues_toDigits (n : Nat) :
    (digitValues (Nat.toDigits 10 n)).head? ≠ some 0
      ∨ (digitValues (Nat.toDigits 10 n)).length = 1 := by
  rcases Nat.eq_zero_or_pos n with rfl | hpos
  · exact .inr rfl
  · left
    have hhead := Text.head?_toDigits_ne_zero (by decide : 1 < 10) hpos
    obtain ⟨c, cs, hcs⟩ := List.exists_cons_of_ne_nil (Nat.toDigits_ne_nil (b := 10) (n := n))
    obtain ⟨d, hd, rfl⟩ := Text.mem_toDigits (by decide) (hcs ▸ List.mem_cons_self)
    rw [hcs] at hhead ⊢
    intro hzero
    have hd0 : (Nat.digitChar d).toNat - '0'.toNat = 0 := Option.some.inj hzero
    rw [digitValue_digitChar d hd] at hd0
    exact hhead (hd0 ▸ rfl)

theorem fraction?_of_endsNumber {rest : List Char} (hrest : EndsNumber rest) :
    fraction? rest = some ([], rest) := by
  rw [fraction?]
  intro tail heq
  exact absurd (hrest '.' (heq ▸ rfl)).2 (by decide)

theorem exponent?_of_endsNumber {rest : List Char} (hrest : EndsNumber rest) :
    exponent? rest = some (none, rest) := by
  cases rest with
  | nil => rfl
  | cons c rest =>
      have hne : ¬(c = 'e' ∨ c = 'E') := by
        rintro (rfl | rfl) <;> exact absurd (hrest _ rfl).2 (by decide)
      rw [exponent?, if_neg hne]

theorem magnitude?_toDigits (negative : Bool) (n : Nat) {rest : List Char}
    (hrest : EndsNumber rest) :
    magnitude? negative (Nat.toDigits 10 n ++ rest)
      = some (numberToken { negative, whole := digitValues (Nat.toDigits 10 n) }, rest) := by
  have hdigits : ∀ c ∈ Nat.toDigits 10 n, isDigit c = true := by
    intro c hc
    obtain ⟨d, hd, rfl⟩ := Text.mem_toDigits (by decide) hc
    exact isDigit_digitChar d hd
  rw [magnitude?, digits?_append hdigits Nat.toDigits_ne_nil hrest, Option.filter_some,
    if_pos (decide_eq_true (head?_digitValues_toDigits n))]
  show ((fraction? rest).bind _) = _
  rw [fraction?_of_endsNumber hrest]
  show ((exponent? rest).bind _) = _
  rw [exponent?_of_endsNumber hrest]
  rfl

/-- Whether a token is read back from its written form: numerals are not always, and strings
without a text never. -/
def Token.IsPlain : Token → Prop
  | .decimal _ => False
  | .string s => s.isSome = true
  | _ => True

theorem token?_digitChar : ∀ d < 10, ∀ cs : List Char,
    token? (Nat.digitChar d :: cs) = magnitude? false (Nat.digitChar d :: cs) := by
  intro d hd cs
  match d, hd with
  | 0, _ | 1, _ | 2, _ | 3, _ | 4, _ | 5, _ | 6, _ | 7, _ | 8, _ | 9, _ => rfl

theorem token?_natural (n : Nat) {rest : List Char} (hrest : EndsNumber rest) :
    token? (Nat.toDigits 10 n ++ rest) = some (.integer n, rest) := by
  obtain ⟨c, cs, hcs⟩ := List.exists_cons_of_ne_nil (Nat.toDigits_ne_nil (b := 10) (n := n))
  obtain ⟨d, hd, rfl⟩ := Text.mem_toDigits (by decide) (hcs ▸ List.mem_cons_self)
  have hread := magnitude?_toDigits false n hrest
  rw [hcs, List.cons_append] at hread ⊢
  rw [token?_digitChar d hd, hread, ← hcs]
  simp [numberToken, ofDigits_digitValues_toDigits]

theorem token?_negative {n : Nat} (hpos : 0 < n) {rest : List Char} (hrest : EndsNumber rest) :
    token? ('-' :: Nat.toDigits 10 n ++ rest) = some (.integer (-n), rest) := by
  show magnitude? true (Nat.toDigits 10 n ++ rest) = _
  rw [magnitude?_toDigits true n hrest]
  simp [numberToken, ofDigits_digitValues_toDigits]
  omega

theorem token?_integer (i : Int) {rest : List Char} (hrest : EndsNumber rest) :
    token? ((Text.decimalSigned i).toList ++ rest) = some (.integer i, rest) := by
  rw [Text.decimalSigned]
  split
  · next hneg =>
      have hpos : 0 < i.natAbs := by omega
      have hvalue : -(i.natAbs : Int) = i := by omega
      have htext : ("-" ++ Text.decimal i.natAbs).toList ++ rest
          = '-' :: Nat.toDigits 10 i.natAbs ++ rest := by
        simp [Text.decimal]
      rw [htext, token?_negative hpos hrest, hvalue]
  · next hnonneg =>
      have hvalue : (i.natAbs : Int) = i := by omega
      rw [Text.decimal, String.toList_ofList, token?_natural _ hrest, hvalue]

theorem token?_quoted (s : String) (rest : List Char) :
    token? ((quoted s).toList ++ rest) = some (.string (some s), rest) := by
  have htext : (quoted s).toList ++ rest = '"' :: (s.toList.flatMap escape ++ '"' :: rest) := by
    simp [quoted]
  rw [htext]
  show (pieces? _).map _ = _
  rw [pieces?_quoted]
  simp [join?_map_pieceOf]

/-- Whether a token is a number. -/
def Token.isNumber : Token → Bool
  | .integer _ | .decimal _ => true
  | _ => false

/-- A plain token is read back from its written form. -/
theorem token?_text {t : Token} (ht : t.IsPlain) {rest : List Char}
    (hrest : t.isNumber = true → EndsNumber rest) :
    token? (t.text.toList ++ rest) = some (t, rest) := by
  cases t with
  | integer i => exact token?_integer i (hrest rfl)
  | string s =>
      obtain ⟨s, rfl⟩ := Option.isSome_iff_exists.mp ht
      exact token?_quoted s rest
  | bool b => cases b <;> simp [Token.text, token?]
  | decimal n => exact absurd ht id
  | _ => simp [Token.text, token?]

theorem tokens?_append_of_gap {gap : List Char} (h : ∀ c ∈ gap, isGap c = true)
    (cs : List Char) : tokens? (gap ++ cs) = tokens? cs := by
  rw [tokens?.eq_def, tokens?.eq_def cs, List.dropWhile_append_of_pos h]

theorem token?_cons_of_gap {c : Char} (h : isGap c = true) (cs : List Char) :
    token? (c :: cs) = none := by
  simp only [isGap, Bool.or_eq_true, beq_iff_eq] at h
  rcases h with ((rfl | rfl) | rfl) | rfl <;> rfl

theorem tokens?_of_token? {cs rest : List Char} {t : Token} (h : token? cs = some (t, rest)) :
    tokens? cs = (tokens? rest).map (t :: ·) := by
  cases cs with
  | nil => cases h
  | cons c cs =>
      have hgap : ¬isGap c = true := by
        intro hgap
        rw [token?_cons_of_gap hgap] at h
        cases h
      have hdrop : (c :: cs).dropWhile isGap = c :: cs := List.dropWhile_cons_of_neg hgap
      rw [tokens?]
      split
      · next heq => cases hdrop.symm.trans heq
      · next d more heq =>
          rw [hdrop] at heq
          cases heq
          split
          · next hnone => cases h.symm.trans hnone
          · next hsome =>
              cases h.symm.trans hsome
              rfl

end MachineCode.Json
