import MachineCode.Proofs.Mips.Words

/-!
# The byte order of MIPS words

The same words stored in the two byte orders give two buffers, and the engines of
the two orders read the same words from them, because the order enters in the
fetch of a word and nowhere else. So the two walks take the same steps, at the
same offsets and addresses, to the same end. All that differs is that the bytes of
each instruction stand the other way round.
-/

namespace MachineCode

open Bytes Engine

/-- The mode with words stored most significant byte first. -/
def Mode.asBigEndian (m : Mode) : Mode :=
  ⟨m.bits ||| bigEndianOrder⟩

theorem Mode.has_asBigEndian {flag : BitVec 32} (m : Mode) (h : bigEndianOrder &&& flag = 0) :
    m.asBigEndian.has flag = m.has flag := by
  have hbits : (m.bits ||| bigEndianOrder) &&& flag = m.bits &&& flag := by
    rw [BitVec.and_comm, BitVec.and_or_distrib_left, BitVec.and_comm, BitVec.and_comm flag, h,
      show (0 : BitVec 32) = 0#32 from rfl, BitVec.or_zero]
  rw [has, has, asBigEndian, hbits]

theorem Mode.isBigEndian_asBigEndian (m : Mode) : m.asBigEndian.isBigEndian = true := by
  have hbits : (m.bits ||| bigEndianOrder) &&& bigEndianOrder = bigEndianOrder := by
    refine BitVec.eq_of_getElem_eq fun i hi => ?_
    rw [BitVec.getElem_and, BitVec.getElem_or]
    cases m.bits[i] <;> cases bigEndianOrder[i] <;> rfl
  rw [isBigEndian, has, asBigEndian, hbits, beq_self_eq_true]

theorem Mode.width_asBigEndian (m : Mode) : m.asBigEndian.width = m.width := by
  rw [width, width, m.has_asBigEndian (by decide), m.has_asBigEndian (by decide)]

/-- Every mode of the family has a companion of the other byte order. -/
theorem supports_asBigEndian {m : Mode} (h : Architecture.mips.supports m = true) :
    Architecture.mips.supports m.asBigEndian = true := by
  rw [Architecture.supports, m.has_asBigEndian (by decide), m.has_asBigEndian (by decide),
    m.has_asBigEndian (by decide), m.has_asBigEndian (by decide)]
  exact h

/-- The engine for words stored most significant byte first. -/
def Engine.asBigEndian (e : Engine) (he : e.architecture = .mips) : Engine where
  architecture := .mips
  mode := e.mode.asBigEndian
  supported := supports_asBigEndian (he ▸ e.supported)
  options := e.options

namespace Mips

theorem Variant.ofMode_asBigEndian (m : Mode) :
    ofMode m.asBigEndian = { ofMode m with bigEndian := true } := by
  rw [ofMode, ofMode, m.width_asBigEndian, m.isBigEndian_asBigEndian,
    m.has_asBigEndian (by decide)]

/-- What a word means is the same in either byte order. -/
theorem Variant.meaning?_bigEndian (v : Variant) (address : UInt64) (w : Word) (order : Bool) :
    { v with bigEndian := order }.meaning? address w = v.meaning? address w :=
  rfl

variable {e : Engine} {words before after : List Word} {w : Word} {start address : UInt64}

theorem length_flatMap_word {bytes : Word → List UInt8} (h : ∀ w, (bytes w).length = wordLength)
    (words : List Word) : (words.flatMap bytes).length = wordLength * words.length := by
  induction words with
  | nil => rfl
  | cons w words ih =>
      rw [List.flatMap_cons, List.length_append, h, ih, List.length_cons, Nat.mul_succ,
        Nat.add_comm]

theorem length_flatMap_littleBytes (words : List Word) :
    (words.flatMap littleBytes).length = wordLength * words.length :=
  length_flatMap_word (fun _ => rfl) words

theorem length_flatMap_bigBytes (words : List Word) :
    (words.flatMap bigBytes).length = wordLength * words.length :=
  length_flatMap_word (fun _ => rfl) words

/-- At the place of a word both engines decode what the word means, or both fail. -/
theorem decodeOne_asBigEndian (he : e.architecture = .mips)
    (horder : e.mode.isBigEndian = false) (hwords : words = before ++ w :: after) :
    let offset := wordLength * before.length
    let little := e.decodeOne (words.flatMap littleBytes) offset address
    let big := (e.asBigEndian he).decodeOne (words.flatMap bigBytes) offset address
    (∃ row ops,
      little = .ok (instructionOf w row ops (littleBytes w) address e.options.detail,
        offset + wordLength) ∧
      big = .ok (instructionOf w row ops (bigBytes w) address e.options.detail,
        offset + wordLength)) ∨
    (little = .error ⟨offset, .unknownOpcode⟩ ∧ big = .error ⟨offset, .unknownOpcode⟩) := by
  intro offset little big
  have hlittle : (Variant.ofMode e.mode).bytesOf w = littleBytes w := by
    rw [Variant.bytesOf, Variant.ofMode, horder]
    rfl
  have hbig : (Variant.ofMode (e.asBigEndian he).mode).bytesOf w = bigBytes w := by
    rw [Engine.asBigEndian, Variant.ofMode_asBigEndian]
    rfl
  have hmeaning : (Variant.ofMode (e.asBigEndian he).mode).meaning? address w =
      (Variant.ofMode e.mode).meaning? address w := by
    rw [Engine.asBigEndian, Variant.ofMode_asBigEndian]
    exact (Variant.ofMode e.mode).meaning?_bigEndian address w true
  have hsplit : little = e.decodeOne (before.flatMap littleBytes ++
      ((Variant.ofMode e.mode).bytesOf w ++ after.flatMap littleBytes))
      (before.flatMap littleBytes).length address := by
    rw [hlittle, length_flatMap_littleBytes, ← List.flatMap_cons, ← List.flatMap_append, ← hwords]
  have hsplit' : big = (e.asBigEndian he).decodeOne (before.flatMap bigBytes ++
      ((Variant.ofMode (e.asBigEndian he).mode).bytesOf w ++ after.flatMap bigBytes))
      (before.flatMap bigBytes).length address := by
    rw [hbig, length_flatMap_bigBytes, ← List.flatMap_cons, ← List.flatMap_append, ← hwords]
  cases h : (Variant.ofMode e.mode).meaning? address w with
  | some parts =>
      obtain ⟨row, ops⟩ := parts
      refine .inl ⟨row, ops, ?_, ?_⟩
      · rw [hsplit, decodeOne_word _ _ he rfl h, hlittle, length_flatMap_littleBytes]
      · rw [hsplit', decodeOne_word _ _ rfl rfl (hmeaning.trans h), hbig, length_flatMap_bigBytes]
        rfl
  | none =>
      refine .inr ⟨?_, ?_⟩
      · rw [hsplit, decodeOne_meaningless_word _ _ he rfl h, length_flatMap_littleBytes]
      · rw [hsplit', decodeOne_meaningless_word _ _ rfl rfl (hmeaning.trans h),
          length_flatMap_bigBytes]

theorem length_instructionOf (w : Word) (row : Row) (ops : List Operand) (address : UInt64)
    (detail : Bool) {bytes : List UInt8} (h : bytes.length = wordLength) :
    (instructionOf w row ops bytes address detail).length.toNat = wordLength := by
  show (UInt16.ofNat bytes.length).toNat = wordLength
  rw [h]
  rfl

/-- Two items show one word, read from its bytes in either order. -/
def Mirrors (w : Word) (little big : Item) : Prop :=
  ∃ i, little = .instruction i ∧ big = .instruction { i with bytes := i.bytes.reverse } ∧
    i.bytes = littleBytes w ∧ ∀ d, i.detail = .mips d → d.raw = w

theorem instructionOf_mirrors (w : Word) (row : Row) (ops : List Operand) (address : UInt64)
    (detail : Bool) :
    Mirrors w (.instruction (instructionOf w row ops (littleBytes w) address detail))
      (.instruction (instructionOf w row ops (bigBytes w) address detail)) := by
  refine ⟨_, rfl, ?_, rfl, fun d hd => ?_⟩
  · rw [← reverse_littleBytes]
    rfl
  · cases detail with
    | true =>
        cases hd
        rfl
    | false => cases hd

/-- Two listings show one run of words: the same failure at the same offset, and item by item the
same words. -/
structure ListsMirror (words : List Word) (little big : Listing) : Prop where
  consumed_eq : big.consumed = little.consumed
  error_eq : big.error = little.error
  length_eq : big.items.length = little.items.length
  item : ∀ k < little.items.length, ∃ w item item', words[k]? = some w ∧
    little.items[k]? = some item ∧ big.items[k]? = some item' ∧ Mirrors w item item'

theorem ListsMirror.finished (e e' : Engine) (offset : Nat) (err : Option DecodeError) :
    ListsMirror words (e.finished offset err) (e'.finished offset err) where
  consumed_eq := rfl
  error_eq := rfl
  length_eq := rfl
  item k hk := absurd hk (Nat.not_lt_zero k)

theorem ListsMirror.push {little big : Listing} {item item' : Item}
    (h : ListsMirror words little big) (hitem : Mirrors w item item') :
    ListsMirror (w :: words) (little.push item) (big.push item') where
  consumed_eq := h.consumed_eq
  error_eq := h.error_eq
  length_eq := congrArg (· + 1) h.length_eq
  item k hk := by
    cases k with
    | zero => exact ⟨w, item, item', rfl, rfl, rfl, hitem⟩
    | succ k => exact h.item k (Nat.lt_of_succ_lt_succ hk)

/-- At every offset inside the buffer where a word may begin, there is one. -/
theorem exists_word (hwords : words = before ++ after)
    (hinside : wordLength * before.length < (words.flatMap littleBytes).length) :
    ∃ w rest, after = w :: rest := by
  cases after with
  | cons w rest => exact ⟨w, rest, rfl⟩
  | nil =>
      rw [length_flatMap_littleBytes, hwords, List.append_nil] at hinside
      exact absurd hinside (Nat.lt_irrefl _)

/-- A walk over words that begins at one of them is followed step by step in the other order. -/
theorem Walk.asBigEndian {budget : Option Nat} {offset : Nat} {l : Listing}
    (h : Walk e (words.flatMap littleBytes) start budget offset l) (he : e.architecture = .mips)
    (horder : e.mode.isBigEndian = false) (hpolicy : e.options.onError = .stop)
    (hwords : words = before ++ after) (hoffset : offset = wordLength * before.length) :
    ∃ l', Walk (e.asBigEndian he) (words.flatMap bigBytes) start budget offset l' ∧
      ListsMirror after l l' := by
  have hlength : (words.flatMap bigBytes).length = (words.flatMap littleBytes).length := by
    rw [length_flatMap_bigBytes, length_flatMap_littleBytes]
  induction h generalizing before after with
  | atEnd budget =>
      refine ⟨(e.asBigEndian he).finished (words.flatMap bigBytes).length none, ?_, ?_⟩
      · rw [← hlength]
        exact .atEnd budget
      · rw [hlength]
        exact .finished ..
  | atLimit inside => exact ⟨_, .atLimit (hlength ▸ inside), .finished ..⟩
  | decoded unspent inside found _ ih =>
      subst hoffset
      obtain ⟨w, rest, rfl⟩ := exists_word hwords inside
      rcases decodeOne_asBigEndian he horder hwords with
        ⟨row, ops, hlittle, hbig⟩ | ⟨hlittle, -⟩
      · cases hlittle.symm.trans found
        have hwords' : words = (before ++ [w]) ++ rest := by
          rw [List.append_assoc]
          exact hwords
        have hnext : wordLength * before.length + wordLength =
            wordLength * (before ++ [w]).length := by
          rw [List.length_append, List.length_singleton, Nat.mul_succ]
        rw [length_instructionOf w row ops _ _ rfl] at ih
        obtain ⟨l', hwalk, hmirror⟩ := ih hwords' hnext
        refine ⟨_, .decoded unspent (hlength ▸ inside) (hbig.trans ?_) ?_,
          hmirror.push (instructionOf_mirrors ..)⟩
        · rw [length_instructionOf w row ops _ _ rfl]
        · rw [length_instructionOf w row ops _ _ rfl]
          exact hwalk
      · cases hlittle.symm.trans found
  | stopped unspent inside failed policy =>
      subst hoffset
      obtain ⟨w, rest, rfl⟩ := exists_word hwords inside
      rcases decodeOne_asBigEndian he horder hwords with ⟨_, _, hlittle, -⟩ | ⟨hlittle, hbig⟩
      · cases hlittle.symm.trans failed
      · cases hlittle.symm.trans failed
        exact ⟨_, .stopped unspent (hlength ▸ inside) hbig policy, .finished ..⟩
  | stepped _ _ _ policy =>
      rw [hpolicy] at policy
      cases policy

/-- Words listed from their bytes in either order, by the engines of the two orders, give the same
listing but for the order of the bytes: as many items, the same failure at the same offset, and at
each place the record of the same word with its bytes reversed. The bound on the number of items,
the detail and the address are the same for both and otherwise free. -/
theorem listing_asBigEndian (e : Engine) (he : e.architecture = .mips)
    (horder : e.mode.isBigEndian = false) (hpolicy : e.options.onError = .stop)
    (words : List Word) (start : UInt64) :
    ListsMirror words (e.listing (words.flatMap littleBytes) start)
      ((e.asBigEndian he).listing (words.flatMap bigBytes) start) := by
  obtain ⟨l', hwalk, hmirror⟩ := Walk.asBigEndian (e.listing_isWalk (words.flatMap littleBytes) start)
    he horder hpolicy (List.nil_append words).symm rfl
  have hlisting : l' = (e.asBigEndian he).listing (words.flatMap bigBytes) start :=
    hwalk.eq_listing
  rw [← hlisting]
  exact hmirror

/-- An addition, and a word that no row has. -/
theorem listing_asBigEndian_addiu :
    let little := mipsOf32.listing [0x34, 0x12, 0x02, 0x24, 0, 0, 0, 0xfc] 0x1000
    let big := (mipsOf32.asBigEndian rfl).listing [0x24, 0x02, 0x12, 0x34, 0xfc, 0, 0, 0] 0x1000
    mipsOf32.mode.isBigEndian = false ∧ little.error = some ⟨4, .unknownOpcode⟩ ∧
      big.error = some ⟨4, .unknownOpcode⟩ ∧ big.consumed = little.consumed ∧
      ∃ i, little.items[0]? = some (.instruction i) ∧ i.bytes = [0x34, 0x12, 0x02, 0x24] ∧
        big.items[0]? = some (.instruction { i with bytes := [0x24, 0x02, 0x12, 0x34] }) := by
  intro little big
  have hlittle : little.error = some ⟨4, .unknownOpcode⟩ ∧ 0 < little.items.length := by
    decide +kernel
  have hmirror : ListsMirror [0x24021234, 0xfc000000] little big :=
    listing_asBigEndian mipsOf32 rfl rfl rfl [0x24021234, 0xfc000000] 0x1000
  obtain ⟨w, item, item', hw, hitem, hitem', i, rfl, rfl, hbytes, -⟩ := hmirror.item 0 hlittle.2
  cases hw
  refine ⟨rfl, hlittle.1, hmirror.error_eq.trans hlittle.1, hmirror.consumed_eq, i, hitem, hbytes,
    ?_⟩
  rw [hitem', hbytes]
  rfl

end Mips

end MachineCode
