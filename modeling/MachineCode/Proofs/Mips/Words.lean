import MachineCode.Proofs.Mips.Relocation
import MachineCode.Proofs.Walk

/-!
# Words in a buffer

A MIPS decode is a word fetch and then a function of the word: `meaning?` gives
the row and the operands. The byte order enters in the fetch alone, and a word
that was stored in the order of the engine is fetched back, so at the place of a
word the engine decodes what the word means, whatever lies before and behind it.
-/

namespace MachineCode.Mips

open Bytes Read

/-- The bytes of a word, least significant first. -/
def littleBytes (w : Word) : List UInt8 :=
  [⟨field 0 8 w⟩, ⟨field 8 8 w⟩, ⟨field 16 8 w⟩, ⟨field 24 8 w⟩]

/-- The bytes of a word, most significant first. -/
def bigBytes (w : Word) : List UInt8 :=
  [⟨field 24 8 w⟩, ⟨field 16 8 w⟩, ⟨field 8 8 w⟩, ⟨field 0 8 w⟩]

/-- The bytes of a word in the order of a variant. -/
def Variant.bytesOf (v : Variant) (w : Word) : List UInt8 :=
  if v.bigEndian then bigBytes w else littleBytes w

variable {v : Variant} {w : Word}

theorem reverse_littleBytes (w : Word) : (littleBytes w).reverse = bigBytes w :=
  rfl

theorem Variant.length_bytesOf (v : Variant) (w : Word) : (v.bytesOf w).length = wordLength := by
  rw [bytesOf]
  split <;> rfl

theorem toNat_byte (start : Nat) (w : Word) :
    (⟨field start 8 w⟩ : UInt8).toNat = w.toNat / 2 ^ start % 256 := by
  show (field start 8 w).toNat = _
  rw [field, BitVec.extractLsb'_toNat, Nat.shiftRight_eq_div_pow]

theorem littleEndian_littleBytes (w : Word) : Bytes.littleEndian (littleBytes w) = w.toNat := by
  have hlt := w.isLt
  simp only [littleBytes, Bytes.littleEndian, toNat_byte]
  omega

theorem bigEndian_bigBytes (w : Word) : Bytes.bigEndian (bigBytes w) = w.toNat := by
  have hlt := w.isLt
  simp only [bigBytes, Bytes.bigEndian, List.foldl_cons, List.foldl_nil, toNat_byte]
  omega

/-- A word is fetched from its own bytes. -/
theorem readWord_bytesOf (v : Variant) (w : Word) : (readWord v).Takes 0 (v.bytesOf w) w := by
  intro start more
  have hvalue : (if v.bigEndian then Bytes.bigEndian else Bytes.littleEndian) (v.bytesOf w) =
      w.toNat := by
    rw [Variant.bytesOf]
    cases v.bigEndian with
    | true => exact bigEndian_bigBytes w
    | false => exact littleEndian_littleBytes w
  have hlen := v.length_bytesOf w
  have hbytes : Read.bytes wordLength ⟨start, 0, v.bytesOf w ++ more⟩ =
      .ok (v.bytesOf w) ⟨start, 0 + (v.bytesOf w).length, more⟩ := by
    have hadv := Tape.advance_append start 0 (v.bytesOf w) more
    rw [hlen] at hadv
    simp only [Read.bytes, List.take_left' hlen, hlen, if_true, hadv]
  rw [readWord, bind_ok hbytes, hvalue, BitVec.ofNat_toNat, BitVec.setWidth_eq]
  rfl

/-- The row and the operands that a word means at an address. -/
def Variant.meaning? (v : Variant) (address : UInt64) (w : Word) : Option (Row × List Operand) := do
  let row ← v.row? w
  let operands ← v.operands? address w row
  return (row, operands)

variable {address : UInt64} {row : Row} {ops : List Operand}

theorem Variant.meaning?_eq_some_iff :
    v.meaning? address w = some (row, ops) ↔
      v.row? w = some row ∧ v.operands? address w row = some ops := by
  simp only [meaning?, Option.bind_eq_bind, Option.bind_eq_some_iff, pure, Option.some.injEq,
    Prod.mk.injEq]
  constructor
  · rintro ⟨row, hrow, ops, hops, rfl, rfl⟩
    exact ⟨hrow, hops⟩
  · rintro ⟨hrow, hops⟩
    exact ⟨row, hrow, ops, hops, rfl, rfl⟩

theorem readParts_of_meaning {t t' : Tape} (hword : readWord v t = .ok w t')
    (h : v.meaning? address w = some (row, ops)) :
    readParts v address t = .ok (w, row, ops) t' := by
  obtain ⟨hrow, hops⟩ := Variant.meaning?_eq_some_iff.mp h
  rw [readParts, bind_ok hword]
  simp only [hrow, hops]
  rfl

theorem readParts_of_no_meaning {t t' : Tape} (hword : readWord v t = .ok w t')
    (h : v.meaning? address w = none) :
    ∃ err, readParts v address t = .error err t' ∧ err.fault = .unknownOpcode := by
  rw [readParts, bind_ok hword]
  cases hrow : v.row? w with
  | none => exact ⟨_, rfl, rfl⟩
  | some row =>
      cases hops : v.operands? address w row with
      | none =>
          simp only [hops]
          exact ⟨_, rfl, rfl⟩
      | some ops =>
          rw [Variant.meaning?_eq_some_iff.mpr ⟨hrow, hops⟩] at h
          cases h

variable {e : Engine}

theorem ofOffset_append (before rest : List UInt8) :
    Tape.ofOffset (before ++ rest) before.length = { start := before.length, rest } := by
  rw [Tape.ofOffset, List.drop_left]

theorem decodeOne_word (before after : List UInt8) (he : e.architecture = .mips)
    (hv : v = .ofMode e.mode) (h : v.meaning? address w = some (row, ops)) :
    e.decodeOne (before ++ (v.bytesOf w ++ after)) before.length address =
      .ok (instructionOf w row ops (v.bytesOf w) address e.options.detail,
        before.length + wordLength) := by
  subst hv
  have hrun := readParts_of_meaning (readWord_bytesOf _ w before.length after) h
  rw [← ofOffset_append] at hrun
  rw [decodeOne_of_parts he (by simp) hrun, List.drop_left, Nat.zero_add, List.take_left,
    Variant.length_bytesOf]

theorem decodeOne_meaningless_word (before after : List UInt8) (he : e.architecture = .mips)
    (hv : v = .ofMode e.mode) (h : v.meaning? address w = none) :
    e.decodeOne (before ++ (v.bytesOf w ++ after)) before.length address =
      .error ⟨before.length, .unknownOpcode⟩ := by
  subst hv
  obtain ⟨err, hrun, hfault⟩ :=
    readParts_of_no_meaning (readWord_bytesOf _ w before.length after) h
  rw [← ofOffset_append] at hrun
  rw [decodeOne_of_parts_error he (by simp) hrun, hfault]

end MachineCode.Mips
