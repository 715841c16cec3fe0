import MachineCode.Proofs.Bytes.BitSlice
import MachineCode.Proofs.Bytes.Endian
import MachineCode.Proofs.SingleDecode

/-!
# Sessions with a reader

A caller has a reader and does one thing after another with it: puts it somewhere,
looks at what is in front of it, reads on, decodes. Most operations are requests.
A request reaches over some bytes from the position; if they are left it is answered
from them alone, and a read then stands behind them; if not, the report gives the
position, the reach and what is left, and the reader stays. Requests differ only in
how far they reach, in whether they move, and in what they make of the bytes.

Decoding is not a request, since its reach comes out of the bytes. It keeps the same
rules: it moves by what it decodes or stays.

What one operation does is said once, by `Operation.Answers`, and holds at every step
of a session by induction on its operations.
-/

namespace MachineCode

open Bytes Read

/-- What a caller may do with a reader. -/
inductive Operation where
  /-- Goes to the beginning. -/
  | begin
  /-- Goes to a position, or to the end if the position lies beyond it. -/
  | place (position : Nat)
  /-- Goes back to a position. -/
  | restore (position : Nat)
  /-- Asks for the bytes from a position up to here. -/
  | since (start : Nat)
  | peek (n : Nat)
  | peekByte
  | peekAt (ahead : UInt64)
  | peekBits (offset : UInt64) (count : UInt32)
  | consume (n : Nat)
  | readNat (n : Nat)
  | readWord (bigEndianOrder : Bool)
  | readSigned (size : Nat)
  | readUnsigned (size : Nat)
  | decode (e : Engine) (address : UInt64)

/-- What an operation gives. -/
inductive Value where
  | done
  | bytes (bs : List UInt8)
  | byte (b : UInt8)
  | bits (w : UInt32)
  | number (n : Nat)
  | signed (i : Int64)
  | unsigned (w : UInt64)
  | instruction (i : Instruction)

/-- What an operation comes to: a value or a failure, and the reader afterwards. -/
structure Outcome where
  result : Except DecodeError Value
  after : Reader

namespace Outcome

variable {α : Type}

/-- A look leaves the reader. -/
def ofLook (r : Reader) (value : α → Value) (x : Except DecodeError α) : Outcome :=
  ⟨x.map value, r⟩

/-- A read brings its own reader, unless it fails. -/
def ofRead (r : Reader) (value : α → Value) : Except DecodeError (α × Reader) → Outcome
  | .ok (a, after) => ⟨.ok (value a), after⟩
  | .error err => ⟨.error err, r⟩

end Outcome

/-- Does an operation. Nothing comes of it where the program stops. -/
def Operation.apply (r : Reader) : Operation → Option Outcome
  | begin => some ⟨.ok .done, .ofPosition r.data 0⟩
  | place position => some ⟨.ok .done, .ofPosition r.data position⟩
  | restore position => some ⟨.ok .done, r.restore position⟩
  | since start => some ⟨.ok (.bytes (r.since start)), r⟩
  | peek n => some (.ofLook r .bytes (r.peek n))
  | peekByte => r.peekByte.map (.ofLook r .byte)
  | peekAt ahead => (r.peekAt ahead).map (.ofLook r .byte)
  | peekBits offset count => (r.peekBits offset count).map (.ofLook r .bits)
  | consume n => some (.ofRead r .bytes (r.consume n))
  | readNat n => some (.ofRead r .number (r.readNat n))
  | readWord bigEndianOrder => some (.ofRead r .number (r.readWord bigEndianOrder))
  | readSigned size => some (.ofRead r .signed (r.readSigned size))
  | readUnsigned size => some (.ofRead r .unsigned (r.readUnsigned size))
  | decode e address =>
    match e.decodeAt r address with
    | .ok i after => some ⟨.ok (.instruction i), after⟩
    | .error err after => some ⟨.error err, after⟩

namespace Operation

/-- How many bytes a request reaches over. -/
def reach? : Operation → Option Nat
  | peek n | consume n | readNat n | readSigned n | readUnsigned n => some n
  | peekByte => some 1
  | peekAt ahead => some (ahead.toNat + 1)
  | peekBits offset count => some (bitSpan offset.toNat count.toNat)
  | readWord _ => some 4
  | begin | place _ | restore _ | since _ | decode .. => none

/-- Whether a request moves behind the bytes that it reaches over. -/
def isRead : Operation → Bool
  | consume _ | readNat _ | readWord _ | readSigned _ | readUnsigned _ => true
  | _ => false

/-- Where an operation that only moves should end, in a buffer of some length. -/
def destination? (length : Nat) : Operation → Option Nat
  | begin => some 0
  | place position | restore position => some (min position length)
  | _ => none

/-- What a request should make of the bytes that it reaches over. -/
inductive Gives : Operation → List UInt8 → Value → Prop where
  | peek {n : Nat} {bs : List UInt8} : (peek n).Gives bs (.bytes bs)
  | peekByte {b : UInt8} : peekByte.Gives [b] (.byte b)
  | peekAt {ahead : UInt64} {skipped : List UInt8} {b : UInt8} :
      (peekAt ahead).Gives (skipped ++ [b]) (.byte b)
  | peekBits {offset : UInt64} {count : UInt32} {bs : List UInt8} {w : UInt32}
      (value_eq : w.toNat = binary (bitSlice bs offset.toNat count.toNat)) :
      (peekBits offset count).Gives bs (.bits w)
  | consume {n : Nat} {bs : List UInt8} : (consume n).Gives bs (.bytes bs)
  | readNat {n : Nat} {bs : List UInt8} : (readNat n).Gives bs (.number (digitsValue bs))
  | readWordLittle {bs : List UInt8} : (readWord false).Gives bs (.number (digitsValue bs))
  | readWordBig {bs : List UInt8} : (readWord true).Gives bs (.number (digitsValue bs.reverse))
  | readSigned {size : Nat} {bs : List UInt8} {i : Int64}
      (value_eq : i.toInt = twosComplement (8 * bs.length) (digitsValue bs)) :
      (readSigned size).Gives bs (.signed i)
  | readUnsigned {size : Nat} {bs : List UInt8} {w : UInt64}
      (value_eq : w.toNat = digitsValue bs) : (readUnsigned size).Gives bs (.unsigned w)

/-- What a caller promises: sums in look-aheads that fit a word, at most 32 bits at once, and the
sizes that sized reads are made for. -/
def Fits (r : Reader) : Operation → Prop
  | peekAt ahead => r.AheadFits ahead
  | peekBits offset count => count.toNat ≤ 32 ∧ offset.toNat + count.toNat < 2 ^ 64
  | readSigned size | readUnsigned size => size = 1 ∨ size = 2 ∨ size = 4 ∨ size = 8
  | _ => True

instance (r : Reader) : (op : Operation) → Decidable (op.Fits r)
  | peekAt ahead => inferInstanceAs (Decidable (r.AheadFits ahead))
  | peekBits .. => inferInstanceAs (Decidable (_ ∧ _))
  | readSigned _ | readUnsigned _ => inferInstanceAs (Decidable (_ ∨ _))
  | begin | place _ | restore _ | since _ | peek _ | peekByte | consume _ | readNat _
  | readWord _ | decode .. => instDecidableTrue

/-- What an operation should come to at a reader. -/
inductive Answers (r : Reader) (op : Operation) : Outcome → Prop where
  /-- A request that has its bytes. -/
  | given {n : Nat} {v : Value} {after : Reader} (reach : op.reach? = some n)
      (within : n ≤ r.remaining) (gives : op.Gives (r.rest.take n) v)
      (data_eq : after.data = r.data)
      (position_eq : after.position = r.position + if op.isRead then n else 0) :
      op.Answers r ⟨.ok v, after⟩
  /-- A request that lacks some of them. -/
  | short {n : Nat} (reach : op.reach? = some n) (beyond : r.remaining < n) :
      op.Answers r ⟨.error ⟨r.position, .underrun n r.remaining⟩, r⟩
  /-- A move. -/
  | moved {position : Nat} {after : Reader}
      (destination : op.destination? r.data.length = some position)
      (data_eq : after.data = r.data) (position_eq : after.position = position) :
      op.Answers r ⟨.ok .done, after⟩
  /-- The bytes from a position up to here. -/
  | passed {start : Nat} {bs : List UInt8} (op_eq : op = since start)
      (bytes_eq : r.data.take (min start r.position) ++ bs = r.data.take r.position) :
      op.Answers r ⟨.ok (.bytes bs), r⟩
  /-- A decode, which moves by what it decodes. -/
  | decoded {e : Engine} {address : UInt64} {i : Instruction} {after : Reader}
      (op_eq : op = decode e address) (decode_eq : e.decode address r.rest = .ok i)
      (within : i.length.toNat ≤ r.remaining)
      (bytes_eq : i.bytes = r.rest.take i.length.toNat)
      (data_eq : after.data = r.data)
      (position_eq : after.position = r.position + i.length.toNat) :
      op.Answers r ⟨.ok (.instruction i), after⟩
  /-- A decode that failed, for a reason of its own. -/
  | refused {e : Engine} {address : UInt64} {fault : Fault}
      (op_eq : op = decode e address) (decode_eq : e.decode address r.rest = .error fault) :
      op.Answers r ⟨.error ⟨r.position, fault⟩, r⟩

end Operation

/-! ## Requests

Reads take their bytes in one way and differ in what they make of them, and looks leave
the reader alone. So one lemma serves the reads and one the looks, and of each request
only the reach and the value are left to be seen. -/

namespace Bytes.Reader

variable {r : Reader} {n : Nat}

theorem consume_of_le (h : n ≤ r.remaining) :
    ∃ after, r.consume n = .ok (r.rest.take n, after) ∧ after.data = r.data ∧
      after.position = r.position + n := by
  refine ⟨_, dif_pos h, rfl, rfl⟩

theorem consume_of_lt (h : r.remaining < n) : r.consume n = .error (r.underrun n) :=
  dif_neg (Nat.not_le.mpr h)

end Bytes.Reader

namespace Operation

variable {r : Reader} {op : Operation} {n : Nat}

/-- Every read that takes `n` bytes and turns them into a value. -/
theorem answers_readWith {α : Type} {read : List UInt8 → α} {value : α → Value}
    (hreach : op.reach? = some n) (hread : op.isRead = true)
    (hgives : n ≤ r.remaining → op.Gives (r.rest.take n) (value (read (r.rest.take n)))) :
    op.Answers r (.ofRead r value (r.readWith n read)) := by
  by_cases h : n ≤ r.remaining
  · obtain ⟨after, hconsume, hdata, hposition⟩ := Reader.consume_of_le h
    rw [Reader.readWith, hconsume]
    exact .given hreach h (hgives h) hdata (by rw [hposition, hread]; rfl)
  · have hlt := Nat.lt_of_not_le h
    rw [Reader.readWith, Reader.consume_of_lt hlt]
    exact .short hreach hlt

/-- Every look at the next `n` bytes. -/
theorem answers_look {v : Value} (hreach : op.reach? = some n) (hread : op.isRead = false)
    (h : n ≤ r.remaining) (hgives : op.Gives (r.rest.take n) v) : op.Answers r ⟨.ok v, r⟩ :=
  .given hreach h hgives rfl (by rw [hread]; rfl)

theorem answers_peek (r : Reader) (n : Nat) :
    (peek n).Answers r (.ofLook r .bytes (r.peek n)) := by
  rw [Reader.peek]
  split
  · next h => exact answers_look rfl rfl h .peek
  · next h => exact .short rfl (Nat.lt_of_not_le h)

/-- The bytes up to the one that is looked at. -/
theorem take_rest_succ {ahead : Nat} {b : UInt8} (h : r.data[r.position + ahead]? = some b) :
    r.rest.take (ahead + 1) = r.rest.take ahead ++ [b] := by
  rw [List.take_add_one, Reader.rest, List.getElem?_drop, h]
  rfl

/-- Every look at the byte behind `n` others. -/
theorem answers_ahead {answer : Except DecodeError UInt8} (hreach : op.reach? = some (n + 1))
    (hread : op.isRead = false) (hgives : ∀ b, op.Gives (r.rest.take n ++ [b]) (.byte b))
    (h : r.LooksAhead n answer) : op.Answers r (.ofLook r .byte answer) := by
  cases h with
  | byte within byte_eq =>
      refine answers_look hreach hread within ?_
      rw [take_rest_succ byte_eq]
      exact hgives _
  | short beyond => exact .short hreach (Nat.lt_succ_of_le beyond)

theorem answers_peekBits {offset : UInt64} {count : UInt32} {answer : Except DecodeError UInt32}
    (h : r.ShowsBits offset.toNat count.toNat answer) :
    (peekBits offset count).Answers r (.ofLook r .bits answer) := by
  cases h with
  | bits within length_eq value_eq =>
      refine answers_look rfl rfl within (.peekBits ?_)
      rw [value_eq, bitSlice_take (le_bitSpan _ _)]
  | short beyond => exact .short rfl beyond

theorem answers_consume (r : Reader) (n : Nat) :
    (consume n).Answers r (.ofRead r .bytes (r.consume n)) := by
  by_cases h : n ≤ r.remaining
  · obtain ⟨after, hconsume, hdata, hposition⟩ := Reader.consume_of_le h
    rw [hconsume]
    exact .given rfl h .consume hdata hposition
  · have hlt := Nat.lt_of_not_le h
    rw [Reader.consume_of_lt hlt]
    exact .short rfl hlt

theorem length_take_rest (h : n ≤ r.remaining) : (r.rest.take n).length = n := by
  rw [List.length_take, Reader.length_rest, Nat.min_eq_left h]

/-- The sizes that sized reads are made for are taken as they are. -/
theorem integerSize_of_documented (h : n = 1 ∨ n = 2 ∨ n = 4 ∨ n = 8) :
    Reader.integerSize n = n ∧ n ≤ 8 := by
  rcases h with rfl | rfl | rfl | rfl <;> decide

theorem answers_readNat (r : Reader) (n : Nat) :
    (readNat n).Answers r (.ofRead r .number (r.readNat n)) := by
  refine answers_readWith rfl rfl fun _ => ?_
  rw [littleEndian_eq_digitsValue]
  exact .readNat

theorem answers_readWord (r : Reader) (order : Bool) :
    (readWord order).Answers r (.ofRead r .number (r.readWord order)) := by
  refine answers_readWith rfl rfl fun _ => ?_
  cases order with
  | false =>
      show (readWord false).Gives _ (.number (littleEndian _))
      rw [littleEndian_eq_digitsValue]
      exact .readWordLittle
  | true =>
      show (readWord true).Gives _ (.number (bigEndian _))
      rw [bigEndian_eq_digitsValue]
      exact .readWordBig

theorem answers_readSigned (h : (readSigned n).Fits r) :
    (readSigned n).Answers r (.ofRead r .signed (r.readSigned n)) := by
  obtain ⟨hsize, hle⟩ := integerSize_of_documented h
  rw [Reader.readSigned, hsize]
  refine answers_readWith rfl rfl fun hwithin => .readSigned ?_
  have hlen := length_take_rest hwithin
  rw [toInt_signed64 (by omega), signedValue_eq_twosComplement (littleEndian_lt _),
    littleEndian_eq_digitsValue]

theorem answers_readUnsigned (h : (readUnsigned n).Fits r) :
    (readUnsigned n).Answers r (.ofRead r .unsigned (r.readUnsigned n)) := by
  obtain ⟨hsize, hle⟩ := integerSize_of_documented h
  rw [Reader.readUnsigned, hsize]
  refine answers_readWith rfl rfl fun hwithin => .readUnsigned ?_
  have hlen := length_take_rest hwithin
  rw [toNat_unsigned64 (by omega), littleEndian_eq_digitsValue]

theorem answers_since (r : Reader) (start : Nat) :
    (since start).Answers r ⟨.ok (.bytes (r.since start)), r⟩ := by
  refine .passed rfl ?_
  have hfront : r.data.take (min start r.position) =
      (r.data.take r.position).take (min start r.position) := by
    rw [List.take_take, Nat.min_assoc, Nat.min_self]
  rw [Reader.since, hfront, List.take_append_drop]

theorem answers_decode (r : Reader) (e : Engine) (address : UInt64) :
    ∃ out, (decode e address).apply r = some out ∧ (decode e address).Answers r out := by
  rw [apply]
  rcases e.stages_settles address r.rest with ⟨taken, rest, i, hrest, ht⟩ | ⟨fault, hr⟩
  · obtain ⟨hspells, -, -⟩ := Engine.stages_takes ht
    have hlen := congrArg List.length hrest
    rw [Reader.length_rest, List.length_append, ← hspells.length_eq] at hlen
    have hfits : r.position + i.length.toNat ≤ r.data.length := by
      have hle := r.position_le
      rw [Reader.remaining] at hlen
      omega
    have hdecode : e.decode address r.rest = .ok i := by
      rw [Engine.decode, hrest, ht 0 rest]
    rw [Engine.decodeAt_of_takes hrest ht, ← hspells.length_eq]
    refine ⟨_, rfl, ?_⟩
    refine .decoded rfl hdecode (by omega) ?_ rfl (Reader.ofPosition_position hfits)
    rw [hspells.bytes_eq, hspells.length_eq, hrest, List.take_left]
  · obtain ⟨raised, moved, hrun, hfault⟩ := Engine.runStages_of_refuses hr
    have hdecode : e.decode address r.rest = .error fault := by
      obtain ⟨err, t, hstages, rfl⟩ := hr.run 0
      rw [Engine.decode, hstages]
    rw [Engine.decodeAt_of_raised hrun]
    subst hfault
    exact ⟨_, rfl, .refused rfl hdecode⟩

/-- Whatever a caller does, as long as it keeps its promises, the program does not stop. -/
theorem answers_apply (hlen : r.data.length < 2 ^ 64) (h : op.Fits r) :
    ∃ out, op.apply r = some out ∧ op.Answers r out := by
  cases op with
  | begin => exact ⟨_, rfl, .moved rfl rfl (Nat.zero_min _)⟩
  | place position => exact ⟨_, rfl, .moved rfl rfl rfl⟩
  | restore position => exact ⟨_, rfl, .moved rfl rfl rfl⟩
  | since start => exact ⟨_, rfl, answers_since r start⟩
  | peek n => exact ⟨_, rfl, answers_peek r n⟩
  | peekByte =>
      have hle := r.position_le
      have hfits : r.AheadFits 0 := by
        show max r.position 1 + 0 < 2 ^ 64
        omega
      obtain ⟨answer, hanswer, hlook⟩ := Reader.looksAhead_peekAt hfits
      exact ⟨_, congrArg (Option.map _) hanswer, answers_ahead rfl rfl (fun _ => .peekByte) hlook⟩
  | peekAt ahead =>
      obtain ⟨answer, hanswer, hlook⟩ := Reader.looksAhead_peekAt h
      exact ⟨_, congrArg (Option.map _) hanswer, answers_ahead rfl rfl (fun _ => .peekAt) hlook⟩
  | peekBits offset count =>
      obtain ⟨answer, hanswer, hlook⟩ := Reader.showsBits_peekBits h.1 h.2
      exact ⟨_, congrArg (Option.map _) hanswer, answers_peekBits hlook⟩
  | consume n => exact ⟨_, rfl, answers_consume r n⟩
  | readNat n => exact ⟨_, rfl, answers_readNat r n⟩
  | readWord order => exact ⟨_, rfl, answers_readWord r order⟩
  | readSigned size => exact ⟨_, rfl, answers_readSigned h⟩
  | readUnsigned size => exact ⟨_, rfl, answers_readUnsigned h⟩
  | decode e address => exact answers_decode r e address

theorem destination?_le {length position : Nat} (h : op.destination? length = some position) :
    position ≤ length := by
  cases op with
  | begin =>
      cases h
      exact Nat.zero_le _
  | place | restore =>
      cases h
      exact Nat.min_le_right _ _
  | _ => cases h

/-- An operation that does what it should leaves the buffer alone and stays within it. -/
theorem Answers.keeps {out : Outcome} (h : op.Answers r out) :
    out.after.data = r.data ∧ out.after.position ≤ r.data.length := by
  have hle := r.position_le
  cases h with
  | short | passed | refused => exact ⟨rfl, hle⟩
  | given reach within gives data_eq position_eq =>
      refine ⟨data_eq, ?_⟩
      rw [Reader.remaining] at within
      dsimp only
      split at position_eq <;> omega
  | moved destination data_eq position_eq =>
      exact ⟨data_eq, Nat.le_trans (Nat.le_of_eq position_eq) (destination?_le destination)⟩
  | decoded op_eq decode_eq within bytes_eq data_eq position_eq =>
      refine ⟨data_eq, ?_⟩
      rw [Reader.remaining] at within
      dsimp only
      omega

end Operation

/-- An operation at a reader and what it comes to, if the program does not stop there. -/
structure Step where
  before : Reader
  operation : Operation
  outcome? : Option Outcome

/-- The steps of a caller that does one operation after another. The program stops with the first
one of which nothing comes. -/
def session (r : Reader) : List Operation → List Step
  | [] => []
  | op :: ops =>
    ⟨r, op, op.apply r⟩ :: match op.apply r with
      | some out => session out.after ops
      | none => []

/-- A step in a buffer that does what it should. -/
structure Step.Lawful (data : List UInt8) (s : Step) (out : Outcome) : Prop where
  outcome_eq : s.outcome? = some out
  before_eq : s.before.data = data
  after_eq : out.after.data = data
  position_le : out.after.position ≤ data.length
  answers : s.operation.Answers s.before out

theorem Step.lawful_apply {r : Reader} {op : Operation} (hlen : r.data.length < 2 ^ 64)
    (h : op.Fits r) : ∃ out, Step.Lawful r.data ⟨r, op, op.apply r⟩ out := by
  obtain ⟨out, hout, hanswers⟩ := Operation.answers_apply hlen h
  exact ⟨out, hout, rfl, hanswers.keeps.1, hanswers.keeps.2, hanswers⟩

/-- In every session of a caller that keeps its promises, every operation is done, and every step
stays within the buffer and does what it should: it fails where it stands and says why, or it gives
what the bytes from the position say and moves by as many as it took. -/
theorem session_lawful (r : Reader) (ops : List Operation) (hlen : r.data.length < 2 ^ 64)
    (hfits : ∀ s ∈ session r ops, s.operation.Fits s.before) :
    (session r ops).map Step.operation = ops ∧
      ∀ s ∈ session r ops, ∃ out, s.Lawful r.data out := by
  induction ops generalizing r with
  | nil => exact ⟨rfl, fun s hs => absurd hs List.not_mem_nil⟩
  | cons op ops ih =>
      rw [session] at hfits ⊢
      obtain ⟨hfirst, hrest⟩ := List.forall_mem_cons.mp hfits
      obtain ⟨out, hstep⟩ := Step.lawful_apply hlen hfirst
      have hout : op.apply r = some out := hstep.outcome_eq
      simp only [hout] at hrest ⊢
      have hdata : out.after.data = r.data := hstep.after_eq
      obtain ⟨hdone, hsteps⟩ := ih out.after (by rwa [hdata]) hrest
      rw [hdata] at hsteps
      rw [List.map_cons, hdone, List.forall_mem_cons, ← hout]
      exact ⟨rfl, ⟨out, hstep⟩, hsteps⟩

/-- A read, a read that fails, looks, a read, a decode, a decode that fails, and back. -/
theorem session_lawful_decodes :
    ∃ (r : Reader) (ops : List Operation), r.data = [0xaa, 0xfe, 0xff, 0, 0, 0, 0] ∧
      r.data.length < 2 ^ 64 ∧ (∀ s ∈ session r ops, s.operation.Fits s.before) ∧
      (session r ops).map Step.operation = ops ∧
      (∀ s ∈ session r ops, ∃ out, s.Lawful r.data out) ∧
      (session r ops).map (fun s => s.outcome?.map fun out => out.after.position) =
        [1, 1, 1, 1, 3, 7, 7, 0].map some := by
  have hfits : ∀ s ∈ session (.ofPosition [0xaa, 0xfe, 0xff, 0, 0, 0, 0] 0) [.readNat 1,
      .readNat 8, .peekAt 1, .peekBits 2 3, .readSigned 2, .decode Engine.mipsOf32 0,
      .decode Engine.mipsOf32 4, .begin], s.operation.Fits s.before := by
    decide +kernel
  obtain ⟨hdone, hsteps⟩ := session_lawful _ _ (by decide) hfits
  exact ⟨_, _, rfl, by decide, hfits, hdone, hsteps, by decide +kernel⟩

end MachineCode
