import MachineCode.Proofs.Walk

/-!
# Walks over joined buffers

A buffer may arrive in two parts. Decoding inside the first part does not notice
the second, as long as it succeeds: an instruction is found by its own bytes. A
failure is another matter, because more bytes may turn a shortage into an
instruction. And decoding inside the second part does not notice the first: all
that changes is where the offsets are counted from, and with them the report of a
failure.

So if a walk over the first part comes to its end without a failure, the walk over
both is that walk, continued over the second part from the address where the first
one ended.
-/

namespace MachineCode

open Bytes Read

/-- The failure as it reads when `n` more bytes lie in front of the buffer. -/
def DecodeError.shift (n : Nat) (err : DecodeError) : DecodeError :=
  err.moveTo (n + err.offset)

/-- The item as it reads when `n` more bytes lie in front of the buffer. Addresses stay. -/
def Item.shift (n : Nat) : Item → Item
  | .instruction i => .instruction i
  | .skipped offset address byte => .skipped (n + offset) address byte

namespace Listing

/-- The listing as it reads when `n` more bytes lie in front of the buffer. -/
def shift (n : Nat) (l : Listing) : Listing :=
  { l with
    items := l.items.map (Item.shift n)
    error := l.error.map (DecodeError.shift n)
    consumed := n + l.consumed }

/-- A listing, and the listing of what comes behind it, as one. -/
def followedBy (l next : Listing) : Listing :=
  { next with items := l.items ++ next.items }

theorem push_followedBy (item : Item) (l next : Listing) :
    (l.push item).followedBy next = (l.followedBy next).push item :=
  rfl

/-- Only bytes that were stepped over carry an offset. -/
theorem items_shift {n : Nat} {l : Listing} (h : ∀ item ∈ l.items, ∃ i, item = .instruction i) :
    (l.shift n).items = l.items := by
  have hsame : ∀ item ∈ l.items, item.shift n = id item := by
    intro item hmem
    obtain ⟨i, rfl⟩ := h item hmem
    rfl
  exact (List.map_congr_left hsame).trans (List.map_id l.items)

end Listing

namespace Engine

variable {e : Engine} {first second : List UInt8} {start address : UInt64} {offset : Nat}
  {i : Instruction} {budget : Option Nat} {l l' : Listing}

/-! ## Decoding inside one of two parts

In the first part only a success carries over to the whole. In the second part both do, and a
failure keeps its reason. -/

theorem decodeOne_append_left {next : Nat} (h : e.decodeOne first offset address = .ok (i, next)) :
    e.decodeOne (first ++ second) offset address = .ok (i, next) := by
  obtain ⟨taken, rest, hoffset, hrest, ht, rfl⟩ := takes_of_decodeOne h
  have hwhole : (first ++ second).drop offset = taken ++ (rest ++ second) := by
    rw [List.drop_append_of_le_length hoffset, hrest, List.append_assoc]
  have hin : offset ≤ (first ++ second).length := by
    rw [List.length_append]
    omega
  exact decodeOne_of_takes hin hwhole ht

theorem decodeOne_append_right_ok (first : List UInt8) {next : Nat}
    (h : e.decodeOne second offset address = .ok (i, next)) :
    e.decodeOne (first ++ second) (first.length + offset) address =
      .ok (i, first.length + next) := by
  obtain ⟨taken, rest, hoffset, hrest, ht, rfl⟩ := takes_of_decodeOne h
  have hin : first.length + offset ≤ (first ++ second).length := by
    rw [List.length_append]
    omega
  rw [decodeOne_of_takes hin ((List.drop_length_add_append offset).trans hrest) ht,
    Nat.add_assoc]

theorem decodeOne_append_right_error (first : List UInt8) {err : DecodeError}
    (hoffset : offset ≤ second.length) (h : e.decodeOne second offset address = .error err) :
    e.decodeOne (first ++ second) (first.length + offset) address =
      .error (err.shift first.length) := by
  obtain ⟨hat, hr⟩ := refuses_of_decodeOne hoffset h
  have hin : first.length + offset ≤ (first ++ second).length := by
    rw [List.length_append]
    omega
  have hdrop : (first ++ second).drop (first.length + offset) = second.drop offset :=
    List.drop_length_add_append offset
  rw [← hdrop] at hr
  rw [decodeOne_of_refuses hin hr, DecodeError.shift, DecodeError.moveTo, hat]

theorem addressAt_addressAt (start : UInt64) (n offset : Nat) :
    addressAt (addressAt start n) offset = addressAt start (n + offset) := by
  rw [← addressAt_add, addressAt]

theorem finished_shift (e : Engine) (n offset : Nat) (error : Option DecodeError) :
    (e.finished offset error).shift n =
      e.finished (n + offset) (error.map (DecodeError.shift n)) :=
  rfl

/-- A walk over the second part is a walk over the whole, from where the first part ends. -/
theorem Walk.append_right (first : List UInt8)
    (h : Walk e second (addressAt start first.length) budget offset l) :
    Walk e (first ++ second) start budget (first.length + offset) (l.shift first.length) := by
  have hinside : ∀ {offset : Nat}, offset < second.length →
      first.length + offset < (first ++ second).length := by
    intro offset hlt
    rw [List.length_append]
    omega
  induction h with
  | atEnd budget =>
      rw [finished_shift, ← List.length_append]
      exact .atEnd budget
  | atLimit inside => exact .atLimit (hinside inside)
  | decoded unspent inside found _ ih =>
      have hfound := decodeOne_append_right_ok first found
      rw [addressAt_addressAt, ← Nat.add_assoc] at hfound
      rw [← Nat.add_assoc] at ih
      exact .decoded unspent (hinside inside) hfound ih
  | stopped unspent inside failed policy =>
      have hfailed := decodeOne_append_right_error first (Nat.le_of_lt inside) failed
      rw [addressAt_addressAt] at hfailed
      exact .stopped unspent (hinside inside) hfailed policy
  | @stepped _ offset _ b _ unspent here failed policy _ ih =>
      have hlt := (List.getElem?_eq_some_iff.mp here).1
      have hfailed := decodeOne_append_right_error first (Nat.le_of_lt hlt) failed
      have hhere : (first ++ second)[first.length + offset]? = some b := by
        rw [List.getElem?_append_right (Nat.le_add_right ..), Nat.add_sub_cancel_left]
        exact here
      rw [addressAt_addressAt] at hfailed
      have hstep := Walk.stepped unspent hhere hfailed policy ih
      rw [← addressAt_addressAt] at hstep
      exact hstep

/-- A walk that ends at failures and met none in the first part goes on into the second. -/
theorem Walk.append_left {next : Listing} (h : Walk e first start none offset l)
    (hpolicy : e.options.onError = .stop) (herror : l.error = none)
    (hnext : Walk e (first ++ second) start none first.length next) :
    Walk e (first ++ second) start none offset (l.followedBy next) := by
  induction h using Walk.unbounded_induction with
  | atEnd => exact hnext
  | stopped => cases herror
  | decoded inside found _ ih =>
      have hinside := Nat.lt_of_lt_of_le inside (List.sublist_append_left first second).length_le
      rw [Listing.push_followedBy]
      exact .decoded none_unspent hinside (decodeOne_append_left found) (ih herror)
  | stepped _ _ policy =>
      rw [hpolicy] at policy
      cases policy

/-- The listing of two buffers, one behind the other, is the listing of the first followed by the
listing of the second at its address, if the first one ends without a failure. The offset of a
failure is then counted from the beginning of the first. -/
theorem listing_append (hpolicy : e.options.onError = .stop)
    (hmax : e.options.maxInstructions = 0) (first second : List UInt8) (start : UInt64)
    (h : (e.listing first start).error = none) :
    let whole := e.listing (first ++ second) start
    let next := e.listing second (addressAt start first.length)
    whole.items = (e.listing first start).items ++ next.items ∧
      whole.consumed = first.length + next.consumed ∧
      whole.error = next.error.map (DecodeError.shift first.length) := by
  have hlimit := limit?_eq_none hmax
  have hfirst := e.listing_isWalk first start
  have hsecond := e.listing_isWalk second (addressAt start first.length)
  have hitems := hsecond.instruction_of_stop hpolicy
  rw [hlimit] at hfirst hsecond
  have hwhole := hfirst.append_left hpolicy h (hsecond.append_right first)
  rw [← hlimit] at hwhole
  rw [← hwhole.eq_listing]
  refine ⟨?_, rfl, rfl⟩
  show _ ++ _ = _
  rw [Listing.items_shift hitems]

/-- A `nop` in the last word of the address space, and behind it, at address zero, a word that no
row has. -/
theorem listing_append_nop :
    let first := mipsOf32.listing [0, 0, 0, 0] 0xfffffffffffffffc
    let second := mipsOf32.listing [0, 0, 0, 0xfc] 0
    let whole := mipsOf32.listing ([0, 0, 0, 0] ++ [0, 0, 0, 0xfc]) 0xfffffffffffffffc
    first.error = none ∧ second.error = some ⟨0, .unknownOpcode⟩ ∧
      whole.items = first.items ++ second.items ∧ whole.consumed = 4 + second.consumed ∧
      whole.error = some ⟨4, .unknownOpcode⟩ := by
  have hfirst : (mipsOf32.listing [0, 0, 0, 0] 0xfffffffffffffffc).error = none := by
    decide +kernel
  have hsecond : (mipsOf32.listing [0, 0, 0, 0xfc] 0).error = some ⟨0, .unknownOpcode⟩ := by
    decide +kernel
  obtain ⟨hitems, hconsumed, herror⟩ :=
    listing_append rfl rfl [0, 0, 0, 0] [0, 0, 0, 0xfc] 0xfffffffffffffffc hfirst
  have hstart : addressAt 0xfffffffffffffffc [(0 : UInt8), 0, 0, 0].length = 0 := rfl
  rw [hstart] at hitems hconsumed herror
  rw [hsecond] at herror
  exact ⟨hfirst, hsecond, hitems, hconsumed, herror⟩

end Engine

end MachineCode
