import MachineCode.Proofs.Bytes.LookAhead
import Mathlib.Data.List.Induction

/-!
# Looking at bits

The bits of a buffer are those of its bytes, each from the most significant down,
and a row of bits is a number by its binary digits. In these terms a big-endian
number is the row of all its bits, shifting right drops bits at the end, and a
remainder by a power of two drops bits in front. A look at bits does just that to
the bytes which the bits lie in, and what is left are the bits that were asked for.

The bytes in question are at most five, so a word of 64 bits holds all of their
bits, and no step of the computation in words leaves the words.
-/

namespace MachineCode.Bytes

/-- The bits of a byte, most significant first. -/
def byteBits (b : UInt8) : List Bool :=
  (List.range 8).map b.toBitVec.getMsbD

/-- The bits of some bytes, byte by byte. -/
def bitsOf (bs : List UInt8) : List Bool :=
  bs.flatMap byteBits

/-- The number whose binary digits are these, most significant first. -/
def binary (bits : List Bool) : Nat :=
  bits.foldl (fun n b => 2 * n + b.toNat) 0

theorem length_byteBits (b : UInt8) : (byteBits b).length = 8 := by
  rw [byteBits, List.length_map, List.length_range]

theorem bitsOf_cons (b : UInt8) (bs : List UInt8) : bitsOf (b :: bs) = byteBits b ++ bitsOf bs :=
  List.flatMap_cons

theorem bitsOf_append (bs bs' : List UInt8) : bitsOf (bs ++ bs') = bitsOf bs ++ bitsOf bs' :=
  List.flatMap_append

theorem length_bitsOf (bs : List UInt8) : (bitsOf bs).length = 8 * bs.length := by
  induction bs with
  | nil => rfl
  | cons b bs ih =>
      rw [bitsOf_cons, List.length_append, length_byteBits, ih, List.length_cons]
      omega

/-- Dropping whole bytes. -/
theorem drop_bitsOf (k : Nat) (bs : List UInt8) :
    (bitsOf bs).drop (8 * k) = bitsOf (bs.drop k) := by
  induction k generalizing bs with
  | zero => rfl
  | succ k ih =>
      cases bs with
      | nil => rfl
      | cons b bs =>
          rw [bitsOf_cons, List.drop_succ_cons, ← ih, Nat.mul_succ, Nat.add_comm,
            ← List.drop_drop, List.drop_left' (length_byteBits b)]

theorem foldl_binary (bits : List Bool) (n : Nat) :
    bits.foldl (fun n b => 2 * n + b.toNat) n = n * 2 ^ bits.length + binary bits := by
  induction bits generalizing n with
  | nil => simp [binary]
  | cons b bits ih =>
      rw [binary, List.foldl_cons, List.foldl_cons, ih, ih (2 * 0 + b.toNat), List.length_cons,
        Nat.pow_succ, Nat.mul_zero, Nat.zero_add, Nat.add_mul, Nat.mul_comm 2 n, Nat.mul_assoc,
        Nat.mul_comm 2, Nat.add_assoc]

theorem binary_append (bits bits' : List Bool) :
    binary (bits ++ bits') = binary bits * 2 ^ bits'.length + binary bits' := by
  rw [binary, List.foldl_append, foldl_binary, ← binary]

theorem binary_lt (bits : List Bool) : binary bits < 2 ^ bits.length := by
  induction bits using List.reverseRecOn with
  | nil => exact Nat.one_pos
  | append_singleton bits b ih =>
      have hdigit : binary [b] < 2 := by cases b <;> decide
      rw [binary_append, List.length_append, Nat.pow_add]
      simp only [List.length_singleton, Nat.pow_one]
      omega

/-- The lowest bits of a number, written down from the highest of them. -/
theorem binary_testBit (n x : Nat) :
    binary ((List.range n).map fun i => x.testBit (n - 1 - i)) = x % 2 ^ n := by
  induction n generalizing x with
  | zero => exact (Nat.mod_one x).symm
  | succ n ih =>
      -- all bits but the last one are those of the half
      have hfront : (List.range n).map (fun i => x.testBit (n + 1 - 1 - i)) =
          (List.range n).map fun i => (x / 2).testBit (n - 1 - i) := by
        refine List.map_congr_left fun i hi => ?_
        have hlt := List.mem_range.mp hi
        rw [← Nat.testBit_succ]
        congr 1
        omega
      have hlast : binary [x.testBit (n + 1 - 1 - n)] = x % 2 := by
        rw [Nat.add_sub_cancel, Nat.sub_self, binary, List.foldl_cons, List.foldl_nil,
          Nat.toNat_testBit]
        omega
      rw [List.range_succ, List.map_append, binary_append, hfront, ih, List.map_singleton, hlast,
        List.length_singleton, Nat.pow_one, Nat.pow_succ' (n := n), Nat.mod_mul]
      omega

theorem binary_byteBits (b : UInt8) : binary (byteBits b) = b.toNat := by
  have hbits : byteBits b = (List.range 8).map fun i => b.toNat.testBit (8 - 1 - i) := by
    refine List.map_congr_left fun i hi => ?_
    rw [BitVec.getMsbD, decide_eq_true (List.mem_range.mp hi), Bool.true_and,
      ← BitVec.testBit_toNat]
    rfl
  rw [hbits, binary_testBit, Nat.mod_eq_of_lt b.toNat_lt]

/-- A big-endian number is the row of all its bits. -/
theorem bigEndian_eq_binary (bs : List UInt8) : bigEndian bs = binary (bitsOf bs) := by
  induction bs using List.reverseRecOn with
  | nil => rfl
  | append_singleton bs b ih =>
      rw [bigEndian, List.foldl_append, ← bigEndian, ih, bitsOf_append, binary_append,
        length_bitsOf]
      show 256 * binary (bitsOf bs) + b.toNat = _ * 2 ^ 8 + binary (bitsOf [b])
      rw [bitsOf_cons, show bitsOf [] = [] from rfl, List.append_nil, binary_byteBits]
      omega

/-- A slice of a row of bits: what follows is shifted out, what is in front is masked. -/
theorem binary_slice (before slice after : List Bool) :
    (binary (before ++ slice ++ after) >>> after.length) % 2 ^ slice.length = binary slice := by
  rw [binary_append, Nat.shiftRight_eq_div_pow, Nat.add_comm,
    Nat.add_mul_div_right _ _ (Nat.two_pow_pos _), Nat.div_eq_of_lt (binary_lt after),
    Nat.zero_add, binary_append, Nat.add_comm, Nat.add_mul_mod_self_right,
    Nat.mod_eq_of_lt (binary_lt slice)]

/-- Some bits of some bytes. -/
def bitSlice (bs : List UInt8) (offset count : Nat) : List Bool :=
  ((bitsOf bs).drop offset).take count

theorem length_bitSlice {bs : List UInt8} {offset count : Nat}
    (h : offset + count ≤ 8 * bs.length) : (bitSlice bs offset count).length = count := by
  rw [bitSlice, List.length_take, List.length_drop, length_bitsOf]
  omega

theorem take_bitsOf (k : Nat) (bs : List UInt8) :
    (bitsOf bs).take (8 * k) = bitsOf (bs.take k) := by
  have hlen : (bitsOf (bs.take k)).length = min (8 * k) (bitsOf bs).length := by
    rw [length_bitsOf, length_bitsOf, List.length_take]
    omega
  have hsplit : bitsOf (bs.take k) ++ bitsOf (bs.drop k) = bitsOf bs := by
    rw [← bitsOf_append, List.take_append_drop]
  rw [List.take_eq_take_min, ← hlen, ← hsplit, List.take_left]

/-- A row does not see what is behind it. -/
theorem bitSlice_take {bs : List UInt8} {offset count k : Nat} (h : offset + count ≤ 8 * k) :
    bitSlice (bs.take k) offset count = bitSlice bs offset count := by
  rw [bitSlice, ← take_bitsOf, List.drop_take, List.take_take, Nat.min_eq_left (by omega),
    bitSlice]

/-- The number of bytes that a row of bits reaches into; one byte even if there are no bits. -/
def bitSpan (offset count : Nat) : Nat :=
  max ((offset + count + 7) / 8) (offset / 8 + 1)

/-- The bytes that a row of bits lies in. -/
def bitWindow (bs : List UInt8) (offset count : Nat) : List UInt8 :=
  (bs.take (bitSpan offset count)).drop (offset / 8)

/-- The number of bits in the window behind the row. -/
def bitsBehind (offset count : Nat) : Nat :=
  (bitSpan offset count - offset / 8) * 8 - offset % 8 - count

section

variable {bs : List UInt8} {offset count : Nat}

theorem length_bitWindow (h : bitSpan offset count ≤ bs.length) :
    (bitWindow bs offset count).length = bitSpan offset count - offset / 8 := by
  rw [bitWindow, List.length_drop, List.length_take, Nat.min_eq_left h]

theorem le_bitSpan (offset count : Nat) : offset + count ≤ 8 * bitSpan offset count := by
  rw [bitSpan]
  omega

theorem div_lt_bitSpan (offset count : Nat) : offset / 8 < bitSpan offset count :=
  Nat.le_max_right _ _

/-- The row and what is in front of it fit the window. -/
theorem le_bitWindow (offset count : Nat) :
    offset % 8 + count ≤ (bitSpan offset count - offset / 8) * 8 := by
  rw [bitSpan]
  omega

/-- The window has at most five bytes. -/
theorem bitWindow_le (offset : Nat) (hcount : count ≤ 32) :
    bitSpan offset count - offset / 8 ≤ 5 := by
  rw [bitSpan]
  omega

theorem bitsBehind_lt (offset : Nat) (hcount : count ≤ 32) : bitsBehind offset count < 64 := by
  have hle := bitWindow_le offset hcount
  rw [bitsBehind]
  omega

/-- The row as a part of the window. -/
theorem bitSlice_eq_window (bs : List UInt8) (offset count : Nat) :
    bitSlice bs offset count =
      ((bitsOf (bitWindow bs offset count)).drop (offset % 8)).take count := by
  rw [bitWindow, ← drop_bitsOf, List.drop_drop, Nat.div_add_mod, ← bitSlice,
    bitSlice_take (le_bitSpan offset count)]

theorem binary_bitWindow (h : bitSpan offset count ≤ bs.length) :
    (binary (bitsOf (bitWindow bs offset count)) >>> bitsBehind offset count) % 2 ^ count =
      binary (bitSlice bs offset count) := by
  have hlen := length_bitWindow h
  have hfits := le_bitWindow offset count
  have hslice := bitSlice_eq_window bs offset count
  have hrow := length_bitsOf (bitWindow bs offset count)
  generalize bitsOf (bitWindow bs offset count) = row at hslice hrow ⊢
  have hsplit : row.take (offset % 8) ++ bitSlice bs offset count ++
      row.drop (offset % 8 + count) = row := by
    rw [hslice, List.append_assoc, ← List.drop_drop, List.take_append_drop,
      List.take_append_drop]
  have hafter : (row.drop (offset % 8 + count)).length = bitsBehind offset count := by
    rw [List.length_drop, hrow, hlen, bitsBehind]
    omega
  have hcount : (bitSlice bs offset count).length = count := by
    rw [hslice, List.length_take, List.length_drop]
    omega
  have hmask := binary_slice (row.take (offset % 8)) (bitSlice bs offset count)
    (row.drop (offset % 8 + count))
  rwa [hsplit, hafter, hcount] at hmask

end

/-! ## The computation in words

No step may leave the words, so of each there are two things to say: that it gives
something, and which number this is. With at most 32 bits the window has five bytes at
most, and the numbers are far from the bound; only the first sum is the caller's own,
and needs a hypothesis. -/

section

variable {bs : List UInt8} {offset : UInt64} {count : UInt32}

/-- One more byte stands below the others, and pushes none of their bits out. -/
theorem toNat_shift_or {acc : UInt64} (b : UInt8) (h : acc.toNat < 2 ^ 56) :
    (acc <<< 8 ||| b.toUInt64).toNat = 256 * acc.toNat + b.toNat := by
  have hshift : (acc <<< 8).toNat = acc.toNat <<< 8 := by
    rw [UInt64.toNat_shiftLeft]
    show acc.toNat <<< 8 % 2 ^ 64 = _
    rw [Nat.shiftLeft_eq]
    omega
  rw [UInt64.toNat_or, hshift, UInt8.toNat_toUInt64,
    ← Nat.shiftLeft_add_eq_or_of_lt (i := 8) b.toNat_lt, Nat.shiftLeft_eq]
  omega

theorem bigEndian_lt (bs : List UInt8) : bigEndian bs < 2 ^ (8 * bs.length) := by
  rw [bigEndian_eq_binary, ← length_bitsOf]
  exact binary_lt _

/-- A word takes up to eight bytes without losing a bit. -/
theorem toNat_accumulate (h : bs.length ≤ 8) : (accumulate bs).toNat = bigEndian bs := by
  induction bs using List.reverseRecOn with
  | nil => rfl
  | append_singleton bs b ih =>
      rw [List.length_append, List.length_singleton] at h
      have hfront := ih (by omega)
      have hlt : (accumulate bs).toNat < 2 ^ 56 := by
        rw [hfront]
        refine Nat.lt_of_lt_of_le (bigEndian_lt bs) (Nat.pow_le_pow_right (by decide) ?_)
        omega
      rw [accumulate, List.foldl_append, ← accumulate, bigEndian, List.foldl_append, ← bigEndian,
        ← hfront]
      exact toNat_shift_or b hlt

theorem toNat_accumulate_bitWindow {offset count : Nat} (hcount : count ≤ 32)
    (h : bitSpan offset count ≤ bs.length) :
    (accumulate (bitWindow bs offset count)).toNat =
      binary (bitsOf (bitWindow bs offset count)) := by
  have hfive := bitWindow_le offset hcount
  rw [toNat_accumulate (by rw [length_bitWindow h]; omega), bigEndian_eq_binary]

/-- Shifted and masked, the word of the window is the row. -/
theorem toNat_shifted {shift mask : UInt64} {offset count : Nat} (hcount : count ≤ 32)
    (h : bitSpan offset count ≤ bs.length) (hshift : shift.toNat = bitsBehind offset count)
    (hmask : mask.toNat = 2 ^ count - 1) :
    ((accumulate (bitWindow bs offset count) >>> shift) &&& mask).toNat =
      binary (bitSlice bs offset count) := by
  have hamount : shift.toNat < 64 := by
    rw [hshift]
    exact bitsBehind_lt offset hcount
  rw [UInt64.toNat_and, UInt64.toNat_shiftRight, toNat_accumulate_bitWindow hcount h,
    Nat.mod_eq_of_lt hamount, hshift, hmask, Nat.and_two_pow_sub_one_eq_mod, binary_bitWindow h]

theorem end_lt (h : offset.toNat + count.toNat < 2 ^ 64) :
    offset.toNat + count.toUInt64.toNat < 2 ^ 64 := by
  rwa [UInt32.toNat_toUInt64]

theorem toNat_end (h : offset.toNat + count.toNat < 2 ^ 64) :
    (offset + count.toUInt64).toNat = offset.toNat + count.toNat := by
  rw [toNat_add_of_lt (end_lt h), UInt32.toNat_toUInt64]

theorem bitStop?_eq (hsum : offset.toNat + count.toNat < 2 ^ 64) :
    ∃ stop, bitStop? offset count = some stop ∧
      stop.toNat = bitSpan offset.toNat count.toNat := by
  have htotal := toNat_end hsum
  have hwhole : ((offset + count.toUInt64) / 8).toNat = (offset.toNat + count.toNat) / 8 := by
    rw [UInt64.toNat_div, htotal]
    rfl
  -- dividing up adds one where bits are left over
  obtain ⟨up, hup, hupNat⟩ : ∃ up : UInt64,
      (if (offset + count.toUInt64) % 8 = 0 then 0 else 1) = up ∧
        (offset.toNat + count.toNat) / 8 + up.toNat = (offset.toNat + count.toNat + 7) / 8 := by
    have hrest : ((offset + count.toUInt64) % 8).toNat = (offset.toNat + count.toNat) % 8 := by
      rw [UInt64.toNat_mod, htotal]
      rfl
    refine ⟨_, rfl, ?_⟩
    split
    · next heq =>
        rw [heq] at hrest
        have hzero : (0 : UInt64).toNat = 0 := rfl
        omega
    · next hne =>
        have hne' : (offset.toNat + count.toNat) % 8 ≠ 0 := by
          rw [← hrest]
          exact fun h => hne (UInt64.toNat_inj.mp h)
        have hone : (1 : UInt64).toNat = 1 := rfl
        omega
  have hlast : ((offset + count.toUInt64) / 8).toNat + up.toNat < 2 ^ 64 := by omega
  have hfirst : (offset / 8).toNat = offset.toNat / 8 := UInt64.toNat_div _ _
  have hone : (1 : UInt64).toNat = 1 := rfl
  have hnext : (offset / 8).toNat + (1 : UInt64).toNat < 2 ^ 64 := by omega
  refine ⟨max ((offset + count.toUInt64) / 8 + up) (offset / 8 + 1), ?_, ?_⟩
  · simp only [bitStop?, add?_of_lt (end_lt hsum), hup, Option.bind_eq_bind, Option.bind_some,
      add?_of_lt hlast, add?_of_lt hnext]
    rfl
  · rw [UInt64.toNat_max, toNat_add_of_lt hlast, toNat_add_of_lt hnext, hwhole, hupNat, hfirst]
    rfl

theorem bitShift?_eq {stop : UInt64} (hcount : count.toNat ≤ 32)
    (hstop : stop.toNat = bitSpan offset.toNat count.toNat) :
    ∃ shift, bitShift? offset count stop = some shift ∧
      shift.toNat = bitsBehind offset.toNat count.toNat := by
  have hfits := le_bitWindow offset.toNat count.toNat
  have hfive := bitWindow_le offset.toNat hcount
  have hinside := div_lt_bitSpan offset.toNat count.toNat
  have hfirst : (offset / 8).toNat = offset.toNat / 8 := UInt64.toNat_div _ _
  have hskip : (offset % 8).toNat = offset.toNat % 8 := UInt64.toNat_mod _ _
  have height : (8 : UInt64).toNat = 8 := rfl
  have hbits : count.toUInt64.toNat = count.toNat := UInt32.toNat_toUInt64 _
  rw [← hstop, ← hfirst] at hfits hfive hinside
  rw [← hskip, ← hbits] at hfits
  have hle : (offset / 8).toNat ≤ stop.toNat := Nat.le_of_lt hinside
  have hwidth : (stop - offset / 8).toNat = stop.toNat - (offset / 8).toNat :=
    UInt64.toNat_sub_of_le _ _ hle
  have hspan : (stop - offset / 8).toNat * (8 : UInt64).toNat < 2 ^ 64 := by
    rw [height]
    omega
  have hproduct : ((stop - offset / 8) * 8).toNat = (stop.toNat - (offset / 8).toNat) * 8 := by
    rw [UInt64.toNat_mul, Nat.mod_eq_of_lt hspan, hwidth, height]
  have hfront : (offset % 8).toNat ≤ ((stop - offset / 8) * 8).toNat := by omega
  have hafter : ((stop - offset / 8) * 8 - offset % 8).toNat =
      ((stop - offset / 8) * 8).toNat - (offset % 8).toNat := UInt64.toNat_sub_of_le _ _ hfront
  have hrow : count.toUInt64.toNat ≤ ((stop - offset / 8) * 8 - offset % 8).toNat := by omega
  refine ⟨(stop - offset / 8) * 8 - offset % 8 - count.toUInt64, ?_, ?_⟩
  · simp only [bitShift?, sub?_of_le hle, mul?_of_lt hspan, sub?_of_le hfront, sub?_of_le hrow,
      Option.bind_eq_bind, Option.bind_some]
  · rw [UInt64.toNat_sub_of_le _ _ hrow, hafter, hproduct, bitsBehind, ← hstop, hfirst, hskip,
      hbits]

theorem bitMask?_eq (hcount : count.toNat ≤ 32) :
    ∃ mask, bitMask? count = some mask ∧ mask.toNat = 2 ^ count.toNat - 1 := by
  rw [bitMask?]
  split
  · next heq => exact ⟨_, rfl, by rw [heq]; rfl⟩
  · next hne =>
      have hlt : count.toNat < 32 :=
        Nat.lt_of_le_of_ne hcount fun heq => hne (UInt32.toNat_inj.mp heq)
      have hbits : count.toUInt64.toNat = count.toNat := UInt32.toNat_toUInt64 _
      have hone : (1 : UInt64).toNat = 1 := rfl
      have hpow : (1 <<< count.toUInt64).toNat = 2 ^ count.toNat := by
        have hle : 2 ^ count.toNat < 2 ^ 64 := Nat.pow_lt_pow_right (by decide) (by omega)
        rw [UInt64.toNat_shiftLeft, hbits, Nat.mod_eq_of_lt (by omega : count.toNat < 64), hone,
          Nat.one_shiftLeft, Nat.mod_eq_of_lt hle]
      have hpos : (1 : UInt64).toNat ≤ (1 <<< count.toUInt64).toNat := by
        rw [hpow, hone]
        exact Nat.two_pow_pos _
      refine ⟨1 <<< count.toUInt64 - 1, ?_, ?_⟩
      · rw [shiftLeft?_of_lt (by omega : count.toUInt64.toNat < 64)]
        exact sub?_of_le hpos
      · rw [UInt64.toNat_sub_of_le _ _ hpos, hpow, hone]

end

namespace Reader

variable {r : Reader} {offset : UInt64} {count : UInt32}

theorem length_rest (r : Reader) : r.rest.length = r.remaining :=
  List.length_drop

/-- What a look at bits answers. -/
inductive ShowsBits (r : Reader) (offset count : Nat) : Except DecodeError UInt32 → Prop where
  | bits {w : UInt32} (within : bitSpan offset count ≤ r.remaining)
      (length_eq : (bitSlice r.rest offset count).length = count)
      (value_eq : w.toNat = binary (bitSlice r.rest offset count)) :
      ShowsBits r offset count (.ok w)
  | short (beyond : r.remaining < bitSpan offset count) :
      ShowsBits r offset count
        (.error ⟨r.position, .underrun (bitSpan offset count) r.remaining⟩)

theorem peekBits_eq (hcount : count.toNat ≤ 32) (hsum : offset.toNat + count.toNat < 2 ^ 64) :
    r.peekBits offset count = some (if bitSpan offset.toNat count.toNat ≤ r.remaining
      then .ok (UInt32.ofNat (binary (bitSlice r.rest offset.toNat count.toNat)))
      else .error (r.underrun (bitSpan offset.toNat count.toNat))) := by
  obtain ⟨stop, hstop, hspan⟩ := bitStop?_eq hsum
  obtain ⟨shift, hshift, hbehind⟩ := bitShift?_eq hcount hspan
  obtain ⟨mask, hmask, hlow⟩ := bitMask?_eq hcount
  have hadmitted : guard (count ≤ 32) = some () := if_pos hcount
  rw [peekBits, hadmitted, Option.bind_eq_bind, Option.bind_some, hstop, Option.bind_eq_bind,
    Option.bind_some, hspan, peek]
  by_cases h : bitSpan offset.toNat count.toNat ≤ r.remaining
  · have hvalue := toNat_shifted hcount (by rwa [length_rest]) hbehind hlow
    have hamount : shift.toNat < 64 := by
      rw [hbehind]
      exact bitsBehind_lt _ hcount
    rw [if_pos h, if_pos h]
    show (do
      let shift ← bitShift? offset count stop
      let mask ← bitMask? count
      return Except.ok ((← shiftRight? (accumulate (bitWindow r.rest offset.toNat count.toNat))
        shift) &&& mask).toUInt32) = _
    simp only [hshift, hmask, shiftRight?_of_lt hamount, Option.bind_eq_bind, Option.bind_some]
    refine congrArg (some ∘ Except.ok) (UInt32.toNat_inj.mp ?_)
    rw [UInt64.toNat_toUInt32, hvalue, UInt32.toNat_ofNat']
  · rw [if_neg h, if_neg h]
    rfl

theorem showsBits_peekBits (hcount : count.toNat ≤ 32)
    (hsum : offset.toNat + count.toNat < 2 ^ 64) :
    ∃ answer, r.peekBits offset count = some answer ∧
      r.ShowsBits offset.toNat count.toNat answer := by
  refine ⟨_, peekBits_eq hcount hsum, ?_⟩
  split
  · next h =>
      have hspan := le_bitSpan offset.toNat count.toNat
      have hreach : offset.toNat + count.toNat ≤ 8 * r.rest.length := by
        rw [length_rest]
        omega
      have hlen := length_bitSlice hreach
      have hlt : binary (bitSlice r.rest offset.toNat count.toNat) < 2 ^ 32 := by
        refine Nat.lt_of_lt_of_le (binary_lt _) (Nat.pow_le_pow_right (by decide) ?_)
        rwa [hlen]
      exact .bits h hlen (by rw [UInt32.toNat_ofNat', Nat.mod_eq_of_lt hlt])
  · next h => exact .short (Nat.lt_of_not_le h)

/-- A look at up to 32 bits answers with the number that the bits spell, if the bytes which they
lie in are left, and else reports how many bytes these are. The program does not stop at any step,
and the word that collects the bytes loses none of their bits. -/
theorem peekBits_slices (r : Reader) (offset : UInt64) (count : UInt32)
    (hcount : count.toNat ≤ 32) (hsum : offset.toNat + count.toNat < 2 ^ 64) :
    (∃ answer, r.peekBits offset count = some answer ∧
        r.ShowsBits offset.toNat count.toNat answer) ∧
      (bitSpan offset.toNat count.toNat ≤ r.remaining →
        (accumulate (bitWindow r.rest offset.toNat count.toNat)).toNat =
          binary (bitsOf (bitWindow r.rest offset.toNat count.toNat))) := by
  refine ⟨showsBits_peekBits hcount hsum, fun h => ?_⟩
  exact toNat_accumulate_bitWindow hcount (by rwa [length_rest])

/-- Four bits across the border of two bytes. -/
theorem peekBits_slices_unaligned :
    (4 : UInt32).toNat ≤ 32 ∧ (6 : UInt64).toNat + (4 : UInt32).toNat < 2 ^ 64 ∧
      (ofPosition [0xff, 0xc5, 0xa0] 1).ShowsBits 6 4 (.ok 0b0110) ∧
      (ofPosition [0xff, 0xc5, 0xa0] 1).peekBits 6 4 = some (.ok 0b0110) := by
  have hcount : (4 : UInt32).toNat ≤ 32 := by decide
  have hsum : (6 : UInt64).toNat + (4 : UInt32).toNat < 2 ^ 64 := by decide
  have hpeek : (ofPosition [0xff, 0xc5, 0xa0] 1).peekBits 6 4 = some (.ok 0b0110) := by decide
  obtain ⟨⟨answer, hanswer, hshows⟩, -⟩ :=
    peekBits_slices (ofPosition [0xff, 0xc5, 0xa0] 1) 6 4 hcount hsum
  obtain rfl := Option.some.inj (hpeek.symm.trans hanswer)
  exact ⟨hcount, hsum, hshows, hpeek⟩

end Reader

end MachineCode.Bytes
