import MachineCode.Json.Basic

/-!
# Tokens of JSON text

The text of a document is a sequence of tokens with blanks between them. Each
token has one written form here, and reading takes the next token off a text.
Escapes in a string are read in two steps: first into characters and 16-bit
units, then units are joined in pairs where they are halves of one character.
-/

namespace MachineCode.Json

/-- Tokens. -/
inductive Token where
  | openBrace | closeBrace | openBracket | closeBracket | comma | colon
  | null
  | bool (b : Bool)
  | integer (value : Int)
  | decimal (n : Numeral)
  | string (s : Option String)
deriving DecidableEq

/-- A character inside a string. -/
def escape (c : Char) : List Char :=
  if c = '"' then ['\\', '"']
  else if c = '\\' then ['\\', '\\']
  else if c = '\x08' then ['\\', 'b']
  else if c = '\t' then ['\\', 't']
  else if c = '\n' then ['\\', 'n']
  else if c = '\x0c' then ['\\', 'f']
  else if c = '\r' then ['\\', 'r']
  else if c.toNat < 0x20 then ['\\', 'u'] ++ (Text.hexPadded 4 c.toNat).toList
  else [c]

/-- A string in quotes. -/
def quoted (s : String) : String :=
  String.ofList ('"' :: s.toList.flatMap escape ++ ['"'])

/-- Digits as characters. -/
def digitText (ds : List Nat) : String :=
  String.ofList (ds.map fun d => Char.ofNat ('0'.toNat + d))

/-- The text of a numeral. -/
def numeralText (n : Numeral) : String :=
  (if n.negative then "-" else "") ++ digitText n.whole
    ++ (if n.fraction.isEmpty then "" else "." ++ digitText n.fraction)
    ++ n.exponent.elim "" fun e => "e" ++ Text.decimalSigned e

/-- The written form of a token. A string without a text is written as an empty one. -/
def Token.text : Token → String
  | openBrace => "\x7b"
  | closeBrace => "\x7d"
  | openBracket => "["
  | closeBracket => "]"
  | comma => ","
  | colon => ":"
  | null => "null"
  | bool b => if b then "true" else "false"
  | integer value => Text.decimalSigned value
  | decimal n => numeralText n
  | string s => quoted (s.getD "")

/-- What a string is made of. -/
inductive Piece where
  | char (c : Char)
  /-- A 16-bit unit written with an escape. -/
  | unit (u : Nat)
deriving DecidableEq

/-- The character that a one-letter escape means. -/
def escaped? (c : Char) : Option Char :=
  [('"', '"'), ('\\', '\\'), ('/', '/'), ('b', '\x08'), ('f', '\x0c'), ('n', '\n'), ('r', '\r'),
    ('t', '\t')].lookup c

/-- The pieces of a string up to its closing quote, and what follows. -/
def pieces? : List Char → Option (List Piece × List Char)
  | [] => none
  | '"' :: rest => some ([], rest)
  | '\\' :: 'u' :: a :: b :: c :: d :: rest => do
    let u ← Text.hexNumber? [a, b, c, d]
    let (ps, rest) ← pieces? rest
    return (.unit u :: ps, rest)
  | '\\' :: e :: rest => do
    let c ← escaped? e
    let (ps, rest) ← pieces? rest
    return (.char c :: ps, rest)
  | c :: rest =>
    if c = '\\' ∨ c.toNat < 0x20 then none
    else do
      let (ps, rest) ← pieces? rest
      return (.char c :: ps, rest)

/-- A string takes at least its closing quote. -/
theorem length_lt_of_pieces? {cs rest : List Char} {ps : List Piece}
    (h : pieces? cs = some (ps, rest)) : rest.length < cs.length := by
  fun_induction pieces? cs generalizing ps rest with
  | case1 => simp at h
  | case2 tail =>
    simp only [Option.some.injEq, Prod.mk.injEq] at h
    simp [h.2]
  | case3 a b c d tail ih =>
    simp only [Option.bind_eq_bind, Option.bind_eq_some_iff, Prod.exists] at h
    obtain ⟨_, _, _, r, hr, heq⟩ := h
    have := ih hr
    simp only [pure, Option.some.injEq, Prod.mk.injEq] at heq
    simp only [List.length_cons, ← heq.2]
    omega
  | case4 e tail _ ih =>
    simp only [Option.bind_eq_bind, Option.bind_eq_some_iff, Prod.exists] at h
    obtain ⟨_, _, _, r, hr, heq⟩ := h
    have := ih hr
    simp only [pure, Option.some.injEq, Prod.mk.injEq] at heq
    simp only [List.length_cons, ← heq.2]
    omega
  | case5 => simp at h
  | case6 c tail _ _ _ _ ih =>
    simp only [Option.bind_eq_bind, Option.bind_eq_some_iff, Prod.exists] at h
    obtain ⟨_, r, hr, heq⟩ := h
    have := ih hr
    simp only [pure, Option.some.injEq, Prod.mk.injEq] at heq
    simp only [List.length_cons, ← heq.2]
    omega

/-- Whether a unit is the first half of a pair. -/
def isHighHalf (u : Nat) : Bool :=
  0xd800 ≤ u && u < 0xdc00

/-- Whether a unit is the second half of a pair. -/
def isLowHalf (u : Nat) : Bool :=
  0xdc00 ≤ u && u < 0xe000

/-- The characters that pieces make; `none` if a half of a pair stands alone. -/
def join? : List Piece → Option (List Char)
  | [] => some []
  | .char c :: ps => (join? ps).map (c :: ·)
  | .unit u :: .unit v :: ps =>
    if isHighHalf u then
      if isLowHalf v then
        (join? ps).map (Char.ofNat (0x10000 + (u - 0xd800) * 0x400 + (v - 0xdc00)) :: ·)
      else none
    else if isLowHalf u then none
    else (join? (.unit v :: ps)).map (Char.ofNat u :: ·)
  | .unit u :: ps =>
    if isHighHalf u || isLowHalf u then none else (join? ps).map (Char.ofNat u :: ·)

/-- Whether a character is a decimal digit. -/
def isDigit (c : Char) : Bool :=
  '0' ≤ c && c ≤ '9'

/-- The values of digits. -/
def digitValues (cs : List Char) : List Nat :=
  cs.map fun c => c.toNat - '0'.toNat

/-- The number that digits denote. -/
def ofDigits (ds : List Nat) : Nat :=
  ds.foldl (fun n d => n * 10 + d) 0

/-- The digits at the beginning of a text, at least one, and what follows. -/
def digits? (cs : List Char) : Option (List Nat × List Char) :=
  let ds := cs.takeWhile isDigit
  if ds.isEmpty then none else some (digitValues ds, cs.dropWhile isDigit)

theorem length_lt_of_digits? {cs rest : List Char} {ds : List Nat}
    (h : digits? cs = some (ds, rest)) : rest.length < cs.length := by
  have total := congrArg List.length (List.takeWhile_append_dropWhile (p := isDigit) (l := cs))
  simp only [List.length_append] at total
  simp only [digits?] at h
  split at h
  · simp at h
  · rename_i hne
    simp only [List.isEmpty_iff] at hne
    have := List.length_pos_iff.mpr hne
    simp only [Option.some.injEq, Prod.mk.injEq] at h
    rw [← h.2]
    omega

/-- Digits behind a point, if there is a point. -/
def fraction? : List Char → Option (List Nat × List Char)
  | '.' :: rest => digits? rest
  | rest => some ([], rest)

theorem length_le_of_fraction? {cs rest : List Char} {ds : List Nat}
    (h : fraction? cs = some (ds, rest)) : rest.length ≤ cs.length := by
  unfold fraction? at h
  split at h
  · have := length_lt_of_digits? h
    simp only [List.length_cons]
    omega
  · simp only [Option.some.injEq, Prod.mk.injEq] at h
    simp [h.2]

/-- The sign of an exponent, and what follows; without one it is positive. -/
def exponentSign : List Char → Bool × List Char
  | '-' :: rest => (true, rest)
  | '+' :: rest => (false, rest)
  | rest => (false, rest)

theorem length_exponentSign_le (cs : List Char) : (exponentSign cs).2.length ≤ cs.length := by
  unfold exponentSign
  split <;> simp

/-- An exponent, if there is one. -/
def exponent? : List Char → Option (Option Int × List Char)
  | [] => some (none, [])
  | c :: rest =>
    if c = 'e' ∨ c = 'E' then
      let (negative, rest) := exponentSign rest
      (digits? rest).map fun (ds, rest) =>
        (some (if negative then -(ofDigits ds : Int) else ofDigits ds), rest)
    else some (none, c :: rest)

theorem length_le_of_exponent? {cs rest : List Char} {e : Option Int}
    (h : exponent? cs = some (e, rest)) : rest.length ≤ cs.length := by
  unfold exponent? at h
  split at h
  · simp only [Option.some.injEq, Prod.mk.injEq] at h
    simp [← h.2]
  · rename_i c tail
    split at h
    · simp only [Option.map_eq_some_iff, Prod.exists, Prod.mk.injEq] at h
      obtain ⟨_, r, hr, _, rfl⟩ := h
      have := length_lt_of_digits? hr
      have := length_exponentSign_le tail
      simp only [List.length_cons]
      omega
    · simp only [Option.some.injEq, Prod.mk.injEq] at h
      simp [h.2]

/-- The token of a number. It is an integer if it has neither a point nor an exponent and is not
a negative zero, which only other numbers can tell from zero. -/
def numberToken (n : Numeral) : Token :=
  if n.fraction.isEmpty && n.exponent.isNone && !(n.negative && ofDigits n.whole == 0) then
    .integer (if n.negative then -(ofDigits n.whole : Int) else ofDigits n.whole)
  else .decimal n

/-- A number without its sign, and what follows. The digits before the point begin with zero only
if that is the only one. -/
def magnitude? (negative : Bool) (cs : List Char) : Option (Token × List Char) := do
  let (whole, rest) ← (digits? cs).filter fun (ds, _) => ds.head? ≠ some 0 ∨ ds.length = 1
  let (fraction, rest) ← fraction? rest
  let (exponent, rest) ← exponent? rest
  return (numberToken { negative, whole, fraction, exponent }, rest)

theorem length_lt_of_magnitude? {negative : Bool} {cs rest : List Char} {t : Token}
    (h : magnitude? negative cs = some (t, rest)) : rest.length < cs.length := by
  simp only [magnitude?, Option.bind_eq_bind, Option.bind_eq_some_iff, Prod.exists] at h
  obtain ⟨_, r₁, h₁, _, r₂, h₂, _, r₃, h₃, heq⟩ := h
  have := length_lt_of_digits? (Option.filter_eq_some_iff.mp h₁).1
  have := length_le_of_fraction? h₂
  have := length_le_of_exponent? h₃
  simp only [pure, Option.some.injEq, Prod.mk.injEq] at heq
  rw [← heq.2]
  omega

/-- Whether a character is a blank between tokens. -/
def isGap (c : Char) : Bool :=
  c == ' ' || c == '\t' || c == '\n' || c == '\r'

/-- The token at the beginning of a text, and what follows. -/
def token? : List Char → Option (Token × List Char)
  | '\x7b' :: rest => some (.openBrace, rest)
  | '\x7d' :: rest => some (.closeBrace, rest)
  | '[' :: rest => some (.openBracket, rest)
  | ']' :: rest => some (.closeBracket, rest)
  | ',' :: rest => some (.comma, rest)
  | ':' :: rest => some (.colon, rest)
  | '"' :: rest => (pieces? rest).map fun (ps, rest) =>
      (.string ((join? ps).map String.ofList), rest)
  | 'n' :: 'u' :: 'l' :: 'l' :: rest => some (.null, rest)
  | 't' :: 'r' :: 'u' :: 'e' :: rest => some (.bool true, rest)
  | 'f' :: 'a' :: 'l' :: 's' :: 'e' :: rest => some (.bool false, rest)
  | '-' :: rest => magnitude? true rest
  | rest => magnitude? false rest

/-- A token takes at least one character. -/
theorem length_lt_of_token? {cs rest : List Char} {t : Token}
    (h : token? cs = some (t, rest)) : rest.length < cs.length := by
  unfold token? at h
  split at h
  case h_7 =>
    simp only [Option.map_eq_some_iff, Prod.exists, Prod.mk.injEq] at h
    obtain ⟨_, r, hr, _, rfl⟩ := h
    have := length_lt_of_pieces? hr
    simp only [List.length_cons]
    omega
  case h_11 =>
    have := length_lt_of_magnitude? h
    simp only [List.length_cons]
    omega
  case h_12 => exact length_lt_of_magnitude? h
  all_goals
    simp only [Option.some.injEq, Prod.mk.injEq] at h
    simp only [List.length_cons, h.2]
    omega

/-- All tokens of a text; `none` if something in it is no token. -/
def tokens? (cs : List Char) : Option (List Token) :=
  match _gap : cs.dropWhile isGap with
  | [] => some []
  | c :: more =>
    match _next : token? (c :: more) with
    | none => none
    | some (t, rest) => (tokens? rest).map (t :: ·)
termination_by cs.length
decreasing_by
  have := length_lt_of_token? _next
  have := (List.dropWhile_suffix (l := cs) isGap).length_le
  rw [_gap] at this
  omega

end MachineCode.Json
