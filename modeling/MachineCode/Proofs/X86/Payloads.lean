import MachineCode.Proofs.X86.PrefixSummary

/-!
# Payloads read back

The payload behind an escape packs up to a dozen fields into two or three bytes, some
of them inverted, next to bits that are fixed. The layout is written down here field by
field, from the top bit of each byte, and what it lays out has a type of its own, with
neither a wrong fixed bit nor a map that does not exist among its values.

Reading undoes the layout one byte at a time, since no field crosses a byte. In the
other direction every payload is either laid out, or malformed in one of five ways, or
no payload at all because `8F` was no escape. So a scan accepts what is laid out and
nothing else, and since the head holds every field, no two payloads lead to one head.
-/

namespace MachineCode.X86

open Bytes

/-- The maps that a payload after `C4` or `62` can name. -/
inductive VexMap where
  | map0F | map0F38 | map0F3A

/-- The maps that a payload after `8F` can name. -/
inductive XopMap where
  | xop8 | xop9 | xopA

namespace VexMap

/-- The number by which a payload names the map. -/
def number : VexMap → BitVec 2
  | map0F => 1
  | map0F38 => 2
  | map0F3A => 3

def opcodeMap : VexMap → OpcodeMap
  | map0F => .map0F
  | map0F38 => .map0F38
  | map0F3A => .map0F3A

end VexMap

namespace XopMap

/-- The number by which a payload names the map. -/
def number : XopMap → BitVec 5
  | xop8 => 8
  | xop9 => 9
  | xopA => 10

def opcodeMap : XopMap → OpcodeMap
  | xop8 => .xop8
  | xop9 => .xop9
  | xopA => .xopA

end XopMap

/-- The fields of a payload after `C4` or `8F`, each as wide as it is stored. -/
structure MiddleFields where
  r : Bool
  x : Bool
  b : Bool
  w : Bool
  vvvv : BitVec 4
  length : BitVec 1
  pp : BitVec 2

/-- The fields of a payload after `62`, each as wide as it is stored. -/
structure LongFields where
  r : Bool
  x : Bool
  b : Bool
  r2 : Bool
  w : Bool
  vvvv : BitVec 4
  pp : BitVec 2
  zeroing : Bool
  length : BitVec 2
  broadcast : Bool
  v2 : Bool
  aaa : BitVec 3

/-- A byte of three inverted extension bits and five bits more. -/
def firstByte (r x b : Bool) (low : BitVec 5) : UInt8 :=
  .ofBitVec (BitVec.ofBool (!r) ++ BitVec.ofBool (!x) ++ BitVec.ofBool (!b) ++ low)

/-- A byte of W, the inverted vvvv, one bit more, and the number of the mandatory prefix. -/
def secondByte (w : Bool) (vvvv : BitVec 4) (bit : BitVec 1) (pp : BitVec 2) : UInt8 :=
  .ofBitVec (BitVec.ofBool w ++ ~~~vvvv ++ bit ++ pp)

/-- A byte of zeroing, the vector length, broadcast, the inverted extension bit of vvvv, and the
number of the write mask. -/
def thirdByte (zeroing : Bool) (length : BitVec 2) (broadcast v2 : Bool) (aaa : BitVec 3) : UInt8 :=
  .ofBitVec (BitVec.ofBool zeroing ++ length ++ BitVec.ofBool broadcast ++ BitVec.ofBool (!v2)
    ++ aaa)

/-- A payload that is laid out as it should be: the escape it follows, its map and its fields. -/
inductive Payload where
  | vex (map : VexMap) (fields : MiddleFields)
  | xop (map : XopMap) (fields : MiddleFields)
  | evex (map : VexMap) (fields : LongFields)

/-- The number that the bits of a field denote. -/
def widen {n : Nat} (bits : BitVec n) : UInt8 :=
  .ofBitVec (bits.setWidth 8)

namespace MiddleFields

/-- The bytes of a payload after `C4` or `8F`. -/
def bytes (f : MiddleFields) (map : BitVec 5) : List UInt8 :=
  [firstByte f.r f.x f.b map, secondByte f.w f.vvvv f.length f.pp]

def toFields (f : MiddleFields) : Fields where
  r := f.r
  x := f.x
  b := f.b
  w := f.w
  vvvv := widen f.vvvv
  length := widen f.length
  pp := widen f.pp

end MiddleFields

namespace LongFields

/-- The bytes of a payload after `62`. The two bits over the map are clear, and the bit where others
have the vector length is set. -/
def bytes (f : LongFields) (map : BitVec 2) : List UInt8 :=
  [firstByte f.r f.x f.b (BitVec.ofBool (!f.r2) ++ 0#2 ++ map),
    secondByte f.w f.vvvv 1#1 f.pp,
    thirdByte f.zeroing f.length f.broadcast f.v2 f.aaa]

def toFields (f : LongFields) : Fields where
  r := f.r
  x := f.x
  b := f.b
  r2 := f.r2
  v2 := f.v2
  w := f.w
  vvvv := widen f.vvvv
  length := widen f.length
  pp := widen f.pp
  aaa := widen f.aaa
  zeroing := f.zeroing
  broadcast := f.broadcast

end LongFields

namespace Payload

def escape : Payload → Escape
  | vex .. => .vexLong
  | xop .. => .xop
  | evex .. => .evex

def bytes : Payload → List UInt8
  | vex map f => f.bytes (map.number.setWidth 5)
  | xop map f => f.bytes map.number
  | evex map f => f.bytes map.number

def opcodeMap : Payload → OpcodeMap
  | vex map _ | evex map _ => map.opcodeMap
  | xop map _ => map.opcodeMap

def toFields : Payload → Fields
  | vex _ f | xop _ f => f.toFields
  | evex _ f => f.toFields

/-- The head behind a payload. -/
def head (p : Payload) (prefixes : Prefixes) : Head where
  mode := .w64
  prefixes
  encoding := p.escape.encoding
  map := p.opcodeMap
  fields := p.toFields

theorem length_bytes (p : Payload) : p.bytes.length = p.escape.payloadLength := by
  cases p <;> rfl

end Payload

/-! ## Reading

Each byte is a case of its own. Taken together the three bytes after `62` would be two
to the twenty-fourth cases, taken one by one they are 256 each. -/

theorem read_firstByte (r x b : Bool) (low : BitVec 5) :
    let c := firstByte r x b low
    Fields.ofFirst c = { r, x, b } ∧ c &&& 0x1f = widen low := by
  revert r x b low
  decide +kernel

theorem read_longFirstByte (r x b r2 : Bool) (clear map : BitVec 2) :
    let c := firstByte r x b (BitVec.ofBool (!r2) ++ clear ++ map)
    Fields.ofLongFirst c = { r, x, b, r2 } ∧ (c &&& 0x0c = 0 ↔ clear = 0) ∧
      c &&& 3 = widen map := by
  revert r x b r2 clear map
  decide +kernel

theorem read_secondByte (w : Bool) (vvvv : BitVec 4) (bit : BitVec 1) (pp : BitVec 2) :
    let c := secondByte w vvvv bit pp
    (c &&& 0x80 != 0) = w ∧ ~~~c >>> 3 &&& 0xf = widen vvvv ∧ c >>> 2 &&& 1 = widen bit ∧
      (c &&& 0x04 = 0 ↔ bit = 0) ∧ c &&& 3 = widen pp := by
  revert w vvvv bit pp
  decide +kernel

theorem read_thirdByte (zeroing : Bool) (length : BitVec 2) (broadcast v2 : Bool)
    (aaa : BitVec 3) :
    let c := thirdByte zeroing length broadcast v2 aaa
    (c &&& 0x80 != 0) = zeroing ∧ c >>> 5 &&& 3 = widen length ∧ (c &&& 0x10 != 0) = broadcast ∧
      (c &&& 0x08 == 0) = v2 ∧ c &&& 7 = widen aaa := by
  revert zeroing length broadcast v2 aaa
  decide +kernel

theorem readMiddle_bytes {h : Head} (hmode : h.mode = .w64) (f : MiddleFields) {low : BitVec 5}
    {map : OpcodeMap} (hmap : mapOfPayload? h.encoding (widen low) = some map) :
    Scan.readMiddle h (f.bytes low) = ({ h with map, fields := f.toFields }, none) := by
  obtain ⟨hfirst, hlow⟩ := read_firstByte f.r f.x f.b low
  obtain ⟨hw, hvvvv, hlength, -, hpp⟩ := read_secondByte f.w f.vvvv f.length f.pp
  simp only [MiddleFields.bytes, Scan.readMiddle, hfirst, hlow, hmap, Fields.addSecond, hw, hvvvv,
    hlength, hpp, hmode]
  rfl

theorem readLong_bytes {h : Head} (hmode : h.mode = .w64) (f : LongFields) {number : BitVec 2}
    {map : OpcodeMap} (hmap : mapOfLongPayload? (widen number) = some map) :
    Scan.readLong h (f.bytes number) = ({ h with map, fields := f.toFields }, none) := by
  obtain ⟨hfirst, hclear, hnumber⟩ := read_longFirstByte f.r f.x f.b f.r2 0#2 number
  obtain ⟨hw, hvvvv, -, hset, hpp⟩ := read_secondByte f.w f.vvvv 1#1 f.pp
  obtain ⟨hzeroing, hlength, hbroadcast, hv2, haaa⟩ :=
    read_thirdByte f.zeroing f.length f.broadcast f.v2 f.aaa
  have hfixed : ¬(firstByte f.r f.x f.b (BitVec.ofBool (!f.r2) ++ 0#2 ++ number) &&& 0x0c ≠ 0 ∨
      secondByte f.w f.vvvv 1#1 f.pp &&& 0x04 = 0) := by
    rw [Ne, hclear, hset]
    decide
  simp only [LongFields.bytes, Scan.readLong, if_neg hfixed, hfirst, hnumber, hmap, Fields.addLong,
    hw, hvvvv, hpp, hzeroing, hlength, hbroadcast, hv2, haaa, hmode]
  rfl

theorem VexMap.mapOfPayload?_number (map : VexMap) :
    mapOfPayload? .vex (widen (map.number.setWidth 5)) = some map.opcodeMap := by
  cases map <;> rfl

theorem VexMap.mapOfLongPayload?_number (map : VexMap) :
    mapOfLongPayload? (widen map.number) = some map.opcodeMap := by
  cases map <;> rfl

theorem XopMap.mapOfPayload?_number (map : XopMap) :
    mapOfPayload? .xop (widen map.number) = some map.opcodeMap := by
  cases map <;> rfl

/-- The head in which the payload of an escape is read. -/
def Escape.head (escape : Escape) (prefixes : Prefixes) : Head where
  mode := .w64
  prefixes
  encoding := escape.encoding

/-- A payload that is laid out is read back. -/
theorem Payload.readPayload_bytes (p : Payload) (prefixes : Prefixes) :
    Scan.readPayload (p.escape.head prefixes) p.escape p.bytes = (p.head prefixes, none) := by
  cases p with
  | vex map f => exact readMiddle_bytes rfl f map.mapOfPayload?_number
  | xop map f => exact readMiddle_bytes rfl f map.mapOfPayload?_number
  | evex map f => exact readLong_bytes rfl f map.mapOfLongPayload?_number

/-- What can be wrong with a whole payload: a map that does not exist, and after `62` two bits that
are not clear or a bit that is not set. -/
inductive Escape.Malformed : Escape → List UInt8 → Prop where
  | vexMap {b c : UInt8} (unknown : b.toNat % 32 ∉ [1, 2, 3]) : Malformed .vexLong [b, c]
  | xopMap {b c : UInt8} (unknown : 11 ≤ b.toNat % 32) : Malformed .xop [b, c]
  | evexMap {b c d : UInt8} (unknown : b.toNat % 4 = 0) : Malformed .evex [b, c, d]
  | notClear {b c d : UInt8} (bits : b.toNat / 4 % 4 ≠ 0) : Malformed .evex [b, c, d]
  | notSet {b c d : UInt8} (bit : c.toNat / 4 % 2 = 0) : Malformed .evex [b, c, d]

theorem toNat_and_low (b : UInt8) :
    (b &&& 0x1f).toNat = b.toNat % 32 ∧ (b &&& 3).toNat = b.toNat % 4 := by
  rw [UInt8.toNat_and, UInt8.toNat_and]
  exact ⟨Nat.and_two_pow_sub_one_eq_mod _ 5, Nat.and_two_pow_sub_one_eq_mod _ 2⟩

theorem and_fixed_iff (b : UInt8) :
    (b &&& 0x0c = 0 ↔ b.toNat / 4 % 4 = 0) ∧ (b &&& 0x04 = 0 ↔ b.toNat / 4 % 2 = 0) := by
  have hall : ∀ c : BitVec 8,
      (UInt8.ofBitVec c &&& 0x0c = 0 ↔ c.toNat / 4 % 4 = 0) ∧
        (UInt8.ofBitVec c &&& 0x04 = 0 ↔ c.toNat / 4 % 2 = 0) := by
    decide +kernel
  exact hall b.toBitVec

theorem mapOfPayload?_vex_eq_none {n : UInt8} (h : n.toNat ∉ [1, 2, 3]) :
    mapOfPayload? .vex n = none := by
  simp only [List.mem_cons, List.not_mem_nil, or_false, not_or] at h
  simp [mapOfPayload?, ← UInt8.toNat_inj, h]

theorem mapOfPayload?_xop_eq_none {n : UInt8} (h : 11 ≤ n.toNat) :
    mapOfPayload? .xop n = none := by
  have hne : n.toNat ≠ 8 ∧ n.toNat ≠ 9 ∧ n.toNat ≠ 10 := by omega
  simp [mapOfPayload?, ← UInt8.toNat_inj, hne]

/-- A malformed payload is refused. -/
theorem readPayload_malformed {escape : Escape} {payload : List UInt8}
    (h : escape.Malformed payload) (prefixes : Prefixes) :
    (Scan.readPayload (escape.head prefixes) escape payload).2 = some .unknownOpcode := by
  cases h with
  | @vexMap b c unknown =>
      rw [← (toNat_and_low b).1] at unknown
      simp only [Scan.readPayload, Scan.readMiddle, Escape.head, Escape.encoding,
        mapOfPayload?_vex_eq_none unknown]
  | @xopMap b c unknown =>
      rw [← (toNat_and_low b).1] at unknown
      simp only [Scan.readPayload, Scan.readMiddle, Escape.head, Escape.encoding,
        mapOfPayload?_xop_eq_none unknown]
  | @notClear b c d bits =>
      have hfixed : b &&& 0x0c ≠ 0 := mt (and_fixed_iff b).1.mp bits
      simp only [Scan.readPayload, Scan.readLong, if_pos (Or.inl hfixed)]
  | @notSet b c d bit =>
      have hfixed : c &&& 0x04 = 0 := (and_fixed_iff c).2.mpr bit
      simp only [Scan.readPayload, Scan.readLong, if_pos (Or.inr hfixed)]
  | @evexMap b c d unknown =>
      have hzero : b &&& 3 = 0 := by
        rw [← UInt8.toNat_inj, (toNat_and_low b).2, unknown]
        rfl
      have hnone : mapOfLongPayload? (b &&& 3) = none := by
        rw [hzero]
        rfl
      simp only [Scan.readPayload, Scan.readLong, hnone]
      split <;> rfl

/-! ## Taking payloads apart

That nothing else is accepted needs the other direction: whatever the bytes are, either
they are the layout of some fields or they are malformed. A byte is taken apart from the
right, one concatenation at a time. -/

theorem exists_append {m n : Nat} (bits : BitVec (m + n)) :
    ∃ (high : BitVec m) (low : BitVec n), bits = high ++ low :=
  ⟨_, _, BitVec.extractLsb'_append_extractLsb'.symm⟩

theorem exists_ofBool (bit : BitVec 1) : ∃ b, bit = BitVec.ofBool b := by
  revert bit
  decide

theorem exists_not_ofBool (bit : BitVec 1) : ∃ b, bit = BitVec.ofBool (!b) := by
  obtain ⟨b, rfl⟩ := exists_ofBool bit
  exact ⟨!b, by rw [Bool.not_not]⟩

theorem exists_firstByte (c : UInt8) : ∃ r x b low, c = firstByte r x b low := by
  obtain ⟨high, low, h⟩ := exists_append (m := 1 + 1 + 1) (n := 5) c.toBitVec
  obtain ⟨high, bit, rfl⟩ := exists_append (m := 1 + 1) (n := 1) high
  obtain ⟨b, rfl⟩ := exists_not_ofBool bit
  obtain ⟨bit, bit', rfl⟩ := exists_append (m := 1) (n := 1) high
  obtain ⟨r, rfl⟩ := exists_not_ofBool bit
  obtain ⟨x, rfl⟩ := exists_not_ofBool bit'
  exact ⟨r, x, b, low, UInt8.toBitVec_inj.mp h⟩

theorem exists_secondByte (c : UInt8) : ∃ w vvvv bit pp, c = secondByte w vvvv bit pp := by
  obtain ⟨high, pp, h⟩ := exists_append (m := 1 + 4 + 1) (n := 2) c.toBitVec
  obtain ⟨high, bit, rfl⟩ := exists_append (m := 1 + 4) (n := 1) high
  obtain ⟨top, inverted, rfl⟩ := exists_append (m := 1) (n := 4) high
  obtain ⟨w, rfl⟩ := exists_ofBool top
  refine ⟨w, ~~~inverted, bit, pp, UInt8.toBitVec_inj.mp ?_⟩
  rw [secondByte, BitVec.not_not]
  exact h

theorem exists_thirdByte (c : UInt8) :
    ∃ zeroing length broadcast v2 aaa, c = thirdByte zeroing length broadcast v2 aaa := by
  obtain ⟨high, aaa, h⟩ := exists_append (m := 1 + 2 + 1 + 1) (n := 3) c.toBitVec
  obtain ⟨high, bit, rfl⟩ := exists_append (m := 1 + 2 + 1) (n := 1) high
  obtain ⟨v2, rfl⟩ := exists_not_ofBool bit
  obtain ⟨high, bit, rfl⟩ := exists_append (m := 1 + 2) (n := 1) high
  obtain ⟨broadcast, rfl⟩ := exists_ofBool bit
  obtain ⟨top, length, rfl⟩ := exists_append (m := 1) (n := 2) high
  obtain ⟨zeroing, rfl⟩ := exists_ofBool top
  exact ⟨zeroing, length, broadcast, v2, aaa, UInt8.toBitVec_inj.mp h⟩

theorem toNat_widen {n : Nat} (h : n ≤ 8) (bits : BitVec n) : (widen bits).toNat = bits.toNat := by
  rw [widen, UInt8.toNat_ofBitVec, BitVec.toNat_setWidth_of_le h]

theorem toNat_firstByte (r x b : Bool) (low : BitVec 5) :
    (firstByte r x b low).toNat % 32 = low.toNat := by
  rw [← (toNat_and_low _).1, (read_firstByte r x b low).2, toNat_widen (by decide)]

theorem VexMap.exists_number {n : Nat} (h : n ∈ [1, 2, 3]) :
    ∃ map : VexMap, map.number.toNat = n := by
  simp only [List.mem_cons, List.not_mem_nil, or_false] at h
  rcases h with rfl | rfl | rfl
  · exact ⟨map0F, rfl⟩
  · exact ⟨map0F38, rfl⟩
  · exact ⟨map0F3A, rfl⟩

theorem XopMap.exists_number {n : Nat} (hle : 8 ≤ n) (hlt : n < 11) :
    ∃ map : XopMap, map.number.toNat = n := by
  obtain rfl | rfl | rfl : n = 8 ∨ n = 9 ∨ n = 10 := by omega
  · exact ⟨xop8, rfl⟩
  · exact ⟨xop9, rfl⟩
  · exact ⟨xopA, rfl⟩

/-- Every payload of two bytes is laid out, but for its map. -/
theorem MiddleFields.exists_bytes (b c : UInt8) :
    ∃ (f : MiddleFields) (map : BitVec 5), f.bytes map = [b, c] ∧ map.toNat = b.toNat % 32 := by
  obtain ⟨r, x, b, low, rfl⟩ := exists_firstByte b
  obtain ⟨w, vvvv, length, pp, rfl⟩ := exists_secondByte c
  exact ⟨{ r, x, b, w, vvvv, length, pp }, low, rfl, (toNat_firstByte r x b low).symm⟩

/-- Every payload of three bytes whose fixed bits are right is laid out, but for its map. -/
theorem LongFields.exists_bytes {b c : UInt8} (d : UInt8) (hclear : b.toNat / 4 % 4 = 0)
    (hset : c.toNat / 4 % 2 ≠ 0) :
    ∃ (f : LongFields) (map : BitVec 2), f.bytes map = [b, c, d] ∧ map.toNat = b.toNat % 4 := by
  obtain ⟨r, x, b, low, rfl⟩ := exists_firstByte b
  obtain ⟨high, map, rfl⟩ := exists_append (m := 1 + 2) (n := 2) low
  obtain ⟨top, clear, rfl⟩ := exists_append (m := 1) (n := 2) high
  obtain ⟨r2, rfl⟩ := exists_not_ofBool top
  obtain ⟨w, vvvv, bit, pp, rfl⟩ := exists_secondByte c
  obtain ⟨zeroing, length, broadcast, v2, aaa, rfl⟩ := exists_thirdByte d
  obtain ⟨-, hclear_iff, hmap⟩ := read_longFirstByte r x b r2 clear map
  obtain ⟨-, -, -, hbit_iff, -⟩ := read_secondByte w vvvv bit pp
  obtain rfl : clear = 0 := hclear_iff.mp ((and_fixed_iff _).1.mpr hclear)
  have hbit : bit ≠ 0 := fun h => hset ((and_fixed_iff _).2.mp (hbit_iff.mpr h))
  obtain rfl := (BitVec.eq_zero_or_eq_one bit).resolve_left hbit
  refine ⟨{ r, x, b, r2, w, vvvv, pp, zeroing, length, broadcast, v2, aaa }, map, rfl, ?_⟩
  rw [← (toNat_and_low _).2, hmap, toNat_widen (by decide)]

theorem Payload.exists_vex {b : UInt8} (c : UInt8) (h : b.toNat % 32 ∈ [1, 2, 3]) :
    ∃ map f, (vex map f).bytes = [b, c] := by
  obtain ⟨f, low, hbytes, hlow⟩ := MiddleFields.exists_bytes b c
  obtain ⟨map, hnumber⟩ := VexMap.exists_number h
  obtain rfl : map.number.setWidth 5 = low := by
    apply BitVec.eq_of_toNat_eq
    rw [BitVec.toNat_setWidth_of_le (by decide), hnumber, hlow]
  exact ⟨map, f, hbytes⟩

theorem Payload.exists_xop {b : UInt8} (c : UInt8) (hle : 8 ≤ b.toNat % 32)
    (hlt : b.toNat % 32 < 11) : ∃ map f, (xop map f).bytes = [b, c] := by
  obtain ⟨f, low, hbytes, hlow⟩ := MiddleFields.exists_bytes b c
  obtain ⟨map, hnumber⟩ := XopMap.exists_number hle hlt
  obtain rfl : map.number = low := BitVec.eq_of_toNat_eq (hnumber.trans hlow.symm)
  exact ⟨map, f, hbytes⟩

theorem Payload.exists_evex {b c : UInt8} (d : UInt8) (hmap : b.toNat % 4 ≠ 0)
    (hclear : b.toNat / 4 % 4 = 0) (hset : c.toNat / 4 % 2 ≠ 0) :
    ∃ map f, (evex map f).bytes = [b, c, d] := by
  obtain ⟨f, low, hbytes, hlow⟩ := LongFields.exists_bytes d hclear hset
  have hmem : low.toNat ∈ [1, 2, 3] := by
    have hlt := low.isLt
    simp only [List.mem_cons, List.not_mem_nil, or_false]
    omega
  obtain ⟨map, hnumber⟩ := VexMap.exists_number hmem
  obtain rfl : map.number = low := BitVec.eq_of_toNat_eq hnumber
  exact ⟨map, f, hbytes⟩

/-- A whole payload is laid out or malformed, or stands behind an `8F` that is no escape. -/
theorem Payload.exists_or_malformed {escape : Escape} {payload : List UInt8}
    (hlong : escape ≠ .vexShort) (hlen : payload.length = escape.payloadLength) :
    (∃ p : Payload, p.escape = escape ∧ p.bytes = payload) ∨ escape.Malformed payload ∨
      escape = .xop ∧ ∃ b c, payload = [b, c] ∧ b.toNat % 32 < 8 := by
  cases escape with
  | vexShort => exact absurd rfl hlong
  | vexLong =>
      obtain ⟨b, c, rfl⟩ := List.length_eq_two.mp hlen
      by_cases hmap : b.toNat % 32 ∈ [1, 2, 3]
      · obtain ⟨map, f, hbytes⟩ := exists_vex c hmap
        exact .inl ⟨.vex map f, rfl, hbytes⟩
      · exact .inr (.inl (.vexMap hmap))
  | xop =>
      obtain ⟨b, c, rfl⟩ := List.length_eq_two.mp hlen
      rcases Nat.lt_or_ge (b.toNat % 32) 8 with hlow | hle
      · exact .inr (.inr ⟨rfl, b, c, rfl, hlow⟩)
      · rcases Nat.lt_or_ge (b.toNat % 32) 11 with hlt | hhigh
        · obtain ⟨map, f, hbytes⟩ := exists_xop c hle hlt
          exact .inl ⟨.xop map f, rfl, hbytes⟩
        · exact .inr (.inl (.xopMap hhigh))
  | evex =>
      obtain ⟨b, c, d, rfl⟩ := List.length_eq_three.mp hlen
      by_cases hmap : b.toNat % 4 = 0
      · exact .inr (.inl (.evexMap hmap))
      · by_cases hclear : b.toNat / 4 % 4 = 0
        · by_cases hset : c.toNat / 4 % 2 = 0
          · exact .inr (.inl (.notSet hset))
          · obtain ⟨map, f, hbytes⟩ := exists_evex d hmap hclear hset
            exact .inl ⟨.evex map f, rfl, hbytes⟩
        · exact .inr (.inl (.notClear hclear))

/-! ## The scan

Behind an escape the payload decides, and whether a byte is an escape is a question for
`8F` only, as the mode is the 64-bit one. So the run of prefix bytes in front matters by
its summary alone, and a scan goes one of three ways. -/

variable {t : Tape} {run payload : List UInt8} {escape : Escape}

/-- A run of prefix bytes that may stand before an escape, an empty one for example. -/
structure PrecedesEscape (run : List UInt8) : Prop where
  prefixes : ∀ b ∈ run, isPrefixByte .w64 b = true
  short : run.length < 15
  allowed : ¬(Prefixes.summary run).Forbids

/-- A tape begins with a run of prefix bytes, `C4`, `8F` or `62`, and a whole payload. -/
structure BeginsWith (t : Tape) (run : List UInt8) (escape : Escape) (payload : List UInt8) :
    Prop where
  rest_eq : ∃ after, t.rest = run ++ escape.lead :: (payload ++ after)
  long : escape ≠ .vexShort
  whole : payload.length = escape.payloadLength

/-- A scan that got behind an escape. -/
structure Scan.Accepts (s : Scan) (escape : Escape) : Prop where
  fault_eq : s.fault = none
  encoding_eq : s.head.encoding = escape.encoding

theorem isPrefixByte_lead (escape : Escape) : isPrefixByte .w64 escape.lead = false := by
  cases escape <;> decide

theorem EscapesAt.append {mode : Width} {b : UInt8} (h : EscapesAt mode b payload)
    (after : List UInt8) : EscapesAt mode b (payload ++ after) := by
  have hhead {c : UInt8} (hc : payload.head? = some c) : (payload ++ after).head? = some c := by
    rw [List.head?_append, hc]
    rfl
  rcases h with ⟨hb, hmode | ⟨c, hc, hbits⟩⟩ | ⟨hb, c, hc, hbits⟩
  · exact .inl ⟨hb, .inl hmode⟩
  · exact .inl ⟨hb, .inr ⟨c, hhead hc, hbits⟩⟩
  · exact .inr ⟨hb, c, hhead hc, hbits⟩

/-- In 64-bit mode only the escape `8F` depends on its payload. -/
theorem escapesAt_w64 (hxop : escape = .xop → ∃ c, payload.head? = some c ∧ 8 ≤ c.toNat % 32) :
    EscapesAt .w64 escape.lead payload := by
  cases escape with
  | vexShort | vexLong | evex => exact .inl ⟨by decide, .inl rfl⟩
  | xop => exact .inr ⟨rfl, hxop rfl⟩

theorem Payload.escapesAt (p : Payload) : EscapesAt .w64 p.escape.lead p.bytes := by
  refine escapesAt_w64 fun hxop => ?_
  cases p with
  | vex | evex => cases hxop
  | xop map f =>
      refine ⟨_, rfl, ?_⟩
      rw [toNat_firstByte]
      cases map <;> decide

theorem Escape.Malformed.escapesAt (h : escape.Malformed payload) :
    EscapesAt .w64 escape.lead payload := by
  refine escapesAt_w64 fun hxop => ?_
  cases h with
  | xopMap unknown => exact ⟨_, rfl, by omega⟩
  | _ => cases hxop

/-- Behind a byte that is an escape, the payload decides. -/
theorem scan_payload (hrun : PrecedesEscape run) (ht : BeginsWith t run escape payload)
    (hesc : EscapesAt .w64 escape.lead payload) :
    let read := Scan.readPayload (escape.head (.summary run)) escape payload
    scan .w64 t = { head := read.1, tape := t.advance (run.length + 1 + payload.length)
                    fault := read.2 } := by
  obtain ⟨after, hrest⟩ := ht.rest_eq
  have hend : ∀ b rest, escape.lead :: (payload ++ after) = b :: rest →
      isPrefixByte .w64 b = false := by
    rintro b rest ⟨⟩
    exact isPrefixByte_lead escape
  have hbehind : (t.advance (run.length + 1)).rest = payload ++ after := by
    rw [Tape.advance, hrest, ← List.drop_drop, List.drop_left]
    rfl
  have hreads := (summarizes_of_run hrest hrun.prefixes hend).escaped escape _ hrun.short rfl
    (hesc.append after) hrun.allowed
  have hwhole := hreads.whole (by rw [hbehind, List.length_append, ht.whole]; omega)
  rw [hbehind, ← ht.whole, List.take_left] at hwhole
  rw [hwhole]
  simp only [Tape.advance, List.drop_drop, Nat.add_assoc]
  rfl

/-- What scans in 64-bit mode make of whole payloads behind a run of prefix bytes. -/
structure ReadsPayloads (run : List UInt8) : Prop where
  /-- What is laid out is read back, and the scan stops behind it. -/
  reads : ∀ (p : Payload) (t : Tape) after, t.rest = run ++ p.escape.lead :: (p.bytes ++ after) →
    scan .w64 t =
      { head := p.head (.summary run), tape := t.advance (run.length + 1 + p.bytes.length) }
  accepts_iff : ∀ t escape payload, BeginsWith t run escape payload →
    ((scan .w64 t).Accepts escape ↔ ∃ p : Payload, p.escape = escape ∧ p.bytes = payload)
  rejects_iff : ∀ t escape payload, BeginsWith t run escape payload →
    ((scan .w64 t).error? t.start = some { offset := t.start, fault := .unknownOpcode } ↔
      escape.Malformed payload)
  /-- The byte `8F` is left to the opcode if the byte after it names a map below 8. -/
  leaves : ∀ t b c, BeginsWith t run .xop [b, c] → b.toNat % 32 < 8 →
    scan .w64 t =
      { head := { mode := .w64, prefixes := .summary run }, tape := t.advance run.length }
  distinct : ∀ t t' escape escape' payload payload', BeginsWith t run escape payload →
    BeginsWith t' run escape' payload' → (scan .w64 t).Accepts escape →
    (scan .w64 t').Accepts escape' → (scan .w64 t).head = (scan .w64 t').head →
    escape = escape' ∧ payload = payload'

theorem scan_laidOut (hrun : PrecedesEscape run) (p : Payload)
    (ht : BeginsWith t run p.escape p.bytes) :
    scan .w64 t =
      { head := p.head (.summary run), tape := t.advance (run.length + 1 + p.bytes.length) } := by
  rw [scan_payload hrun ht p.escapesAt, p.readPayload_bytes]

theorem scan_malformed (hrun : PrecedesEscape run) (ht : BeginsWith t run escape payload)
    (h : escape.Malformed payload) : (scan .w64 t).fault = some .unknownOpcode := by
  rw [scan_payload hrun ht h.escapesAt]
  exact readPayload_malformed h _

theorem scan_lowMap {b c : UInt8} (hrun : PrecedesEscape run) (ht : BeginsWith t run .xop [b, c])
    (hlow : b.toNat % 32 < 8) :
    scan .w64 t =
      { head := { mode := .w64, prefixes := .summary run }, tape := t.advance run.length } := by
  obtain ⟨after, hrest⟩ := ht.rest_eq
  refine scan_legacy hrest hrun.prefixes hrun.short (isPrefixByte_lead .xop) ?_
  rintro (⟨hlead, -⟩ | ⟨-, d, hd, hbits⟩)
  · revert hlead
    decide
  · cases hd
    omega

/-- The three ways that a scan can go at a whole payload. -/
theorem scan_cases (hrun : PrecedesEscape run) (ht : BeginsWith t run escape payload) :
    (∃ p : Payload, p.escape = escape ∧ p.bytes = payload ∧
        (scan .w64 t).head = p.head (.summary run) ∧ (scan .w64 t).fault = none) ∨
      (escape.Malformed payload ∧ (scan .w64 t).fault = some .unknownOpcode) ∨
      ((scan .w64 t).fault = none ∧ (scan .w64 t).head.encoding = .legacy) := by
  rcases Payload.exists_or_malformed ht.long ht.whole with
    ⟨p, rfl, rfl⟩ | hmalformed | ⟨rfl, b, c, rfl, hlow⟩
  · have hscan := scan_laidOut hrun p ht
    exact .inl ⟨p, rfl, rfl, congrArg Scan.head hscan, congrArg Scan.fault hscan⟩
  · exact .inr (.inl ⟨hmalformed, scan_malformed hrun ht hmalformed⟩)
  · have hscan := scan_lowMap hrun ht hlow
    exact .inr (.inr ⟨congrArg Scan.fault hscan, by rw [hscan]⟩)

theorem widen_inj {n : Nat} (h : n ≤ 8) {bits bits' : BitVec n} (heq : widen bits = widen bits') :
    bits = bits' := by
  apply BitVec.eq_of_toNat_eq
  rw [← toNat_widen h, heq, toNat_widen h]

theorem MiddleFields.toFields_inj {f f' : MiddleFields} (h : f.toFields = f'.toFields) :
    f = f' := by
  cases f
  cases f'
  simp only [toFields, Fields.mk.injEq] at h
  obtain ⟨rfl, rfl, rfl, -, -, rfl, hvvvv, hlength, hpp, -⟩ := h
  obtain rfl := widen_inj (by decide) hvvvv
  obtain rfl := widen_inj (by decide) hlength
  obtain rfl := widen_inj (by decide) hpp
  rfl

theorem LongFields.toFields_inj {f f' : LongFields} (h : f.toFields = f'.toFields) : f = f' := by
  cases f
  cases f'
  simp only [toFields, Fields.mk.injEq] at h
  obtain ⟨rfl, rfl, rfl, rfl, rfl, rfl, hvvvv, hlength, hpp, haaa, rfl, rfl⟩ := h
  obtain rfl := widen_inj (by decide) hvvvv
  obtain rfl := widen_inj (by decide) hlength
  obtain rfl := widen_inj (by decide) hpp
  obtain rfl := widen_inj (by decide) haaa
  rfl

theorem VexMap.opcodeMap_inj {map map' : VexMap} (h : map.opcodeMap = map'.opcodeMap) :
    map = map' := by
  cases map <;> cases map' <;> first | rfl | cases h

theorem XopMap.opcodeMap_inj {map map' : XopMap} (h : map.opcodeMap = map'.opcodeMap) :
    map = map' := by
  cases map <;> cases map' <;> first | rfl | cases h

/-- The head holds all of the payload. -/
theorem Payload.head_inj {p p' : Payload} {prefixes : Prefixes}
    (h : p.head prefixes = p'.head prefixes) : p = p' := by
  have hencoding := congrArg Head.encoding h
  have hmap := congrArg Head.map h
  have hfields := congrArg Head.fields h
  cases p with
  | vex map f =>
      cases p' with
      | vex map' f' => rw [VexMap.opcodeMap_inj hmap, MiddleFields.toFields_inj hfields]
      | xop | evex => cases hencoding
  | xop map f =>
      cases p' with
      | xop map' f' => rw [XopMap.opcodeMap_inj hmap, MiddleFields.toFields_inj hfields]
      | vex | evex => cases hencoding
  | evex map f =>
      cases p' with
      | evex map' f' => rw [VexMap.opcodeMap_inj hmap, LongFields.toFields_inj hfields]
      | vex | xop => cases hencoding

theorem Scan.error?_unknownOpcode_iff (s : Scan) (start : Nat) :
    s.error? start = some { offset := start, fault := .unknownOpcode } ↔
      s.fault = some .unknownOpcode := by
  rw [Scan.error?]
  cases hfault : s.fault with
  | none => simp
  | some fault => cases fault <;> simp

theorem Scan.not_accepts_of_legacy {s : Scan} (h : s.head.encoding = .legacy) (escape : Escape) :
    ¬s.Accepts escape := by
  intro haccepts
  have heq := h.symm.trans haccepts.encoding_eq
  cases escape <;> cases heq

/-- An accepted payload is laid out, and the head holds what it says. -/
theorem exists_of_accepts (hrun : PrecedesEscape run) (ht : BeginsWith t run escape payload)
    (haccepts : (scan .w64 t).Accepts escape) :
    ∃ p : Payload, p.escape = escape ∧ p.bytes = payload ∧
      (scan .w64 t).head = p.head (.summary run) := by
  rcases scan_cases hrun ht with ⟨p, hescape, hbytes, hhead, -⟩ | ⟨-, hfault⟩ | ⟨-, hlegacy⟩
  · exact ⟨p, hescape, hbytes, hhead⟩
  · rw [haccepts.fault_eq] at hfault
    cases hfault
  · exact absurd haccepts (Scan.not_accepts_of_legacy hlegacy escape)

/-- Payloads are read back from their layout. A scan in 64-bit mode accepts what is laid out and
nothing else, tells its map and every field, and stops behind it; it refuses what is malformed and
nothing else; and no two payloads that it accepts lead to one head. -/
theorem scan_readsPayloads (hrun : PrecedesEscape run) : ReadsPayloads run where
  reads p t after hrest := by
    refine scan_laidOut hrun p ⟨⟨after, hrest⟩, ?_, p.length_bytes⟩
    cases p <;> exact Escape.noConfusion
  accepts_iff t escape payload ht := by
    constructor
    · intro haccepts
      obtain ⟨p, hescape, hbytes, -⟩ := exists_of_accepts hrun ht haccepts
      exact ⟨p, hescape, hbytes⟩
    · rintro ⟨p, rfl, rfl⟩
      rw [scan_laidOut hrun p ht]
      exact ⟨rfl, rfl⟩
  rejects_iff t escape payload ht := by
    rw [Scan.error?_unknownOpcode_iff]
    refine ⟨fun hfault => ?_, scan_malformed hrun ht⟩
    rcases scan_cases hrun ht with ⟨-, -, -, -, hnone⟩ | ⟨hmalformed, -⟩ | ⟨hnone, -⟩
    · rw [hnone] at hfault
      cases hfault
    · exact hmalformed
    · rw [hnone] at hfault
      cases hfault
  leaves t b c ht hlow := scan_lowMap hrun ht hlow
  distinct t t' escape escape' payload payload' ht ht' haccepts haccepts' heq := by
    obtain ⟨p, rfl, rfl, hhead⟩ := exists_of_accepts hrun ht haccepts
    obtain ⟨p', rfl, rfl, hhead'⟩ := exists_of_accepts hrun ht' haccepts'
    obtain rfl := Payload.head_inj (hhead.symm.trans (heq.trans hhead'))
    exact ⟨rfl, rfl⟩

/-- A payload of three bytes behind a segment, with a one in most of its fields. -/
theorem scan_readsPayloads_evex :
    scan .w64 { rest := [0x64, 0x62, 0x42, 0xd5, 0xd5, 0x58] } =
      { head :=
          { mode := .w64
            prefixes := { count := 1, slots := #v[0, 0x64, 0, 0], segment := .fs }
            encoding := .evex
            map := .map0F38
            fields :=
              { r := true, b := true, r2 := true, v2 := true, w := true, vvvv := 5, length := 2,
                pp := 1, aaa := 5, zeroing := true, broadcast := true } }
        tape := { used := 5, rest := [0x58] } } := by
  have hrun : PrecedesEscape [0x64] := {
    prefixes := List.forall_mem_singleton.mpr (by decide)
    short := by decide
    allowed := by
      rintro (h | h | h | h) <;> revert h <;> decide }
  let fields : LongFields :=
    { r := true, x := false, b := true, r2 := true, w := true, vvvv := 5, pp := 1, zeroing := true,
      length := 2, broadcast := true, v2 := true, aaa := 5 }
  have hscan := (scan_readsPayloads hrun).reads (.evex .map0F38 fields)
    { rest := [0x64, 0x62, 0x42, 0xd5, 0xd5, 0x58] } [0x58] (by decide)
  rw [hscan]
  decide

end MachineCode.X86
