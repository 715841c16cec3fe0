import MachineCode.Proofs.Options
import MachineCode.Stream

/-!
# Streams yield what walks list

A stream and a walk are two loops over the same decoder. The stream keeps a reader
and a mark that it failed, and moves when it is asked; the walk keeps an offset and
runs to its end. They agree because a failed decode leaves the reader where it was:
a stream that was asked as often as the walk took steps stands at the offset where
the walk stands.

The walk to compare with is the one that ends at failures and has no bound,
whatever the engine itself was told, because a stream takes notice of neither.
-/

namespace MachineCode

open Bytes Read

namespace Engine

variable {e : Engine} {bytes : List UInt8} {address : UInt64} {offset : Nat} {i : Instruction}

theorem decodeAt_of_decodeOne_ok {next : Nat}
    (h : e.decodeOne bytes offset address = .ok (i, next)) :
    e.decodeAt (Reader.ofPosition bytes offset) address =
      .ok i (Reader.ofPosition bytes next) := by
  obtain ⟨taken, rest, hoffset, hrest, ht, rfl⟩ := takes_of_decodeOne h
  have hread := Reader.rest_ofPosition hoffset
  rw [decodeAt_of_takes (hread.trans hrest) ht, Reader.ofPosition_position hoffset]
  rfl

theorem decodeAt_of_decodeOne_error {err : DecodeError} (hoffset : offset ≤ bytes.length)
    (h : e.decodeOne bytes offset address = .error err) :
    e.decodeAt (Reader.ofPosition bytes offset) address =
      .error err (Reader.ofPosition bytes offset) := by
  obtain ⟨hat, hr⟩ := refuses_of_decodeOne hoffset h
  rw [← Reader.rest_ofPosition hoffset] at hr
  obtain ⟨raised, moved, hrun, hfault⟩ := runStages_of_refuses hr
  rw [decodeAt_of_raised hrun, Reader.ofPosition_position hoffset, DecodeError.moveTo, hfault,
    ← hat]

end Engine

namespace Stream

/-- The stream after it was asked `k` times. -/
def after (s : Stream) : Nat → Stream
  | 0 => s
  | k + 1 => s.next.2.after k

theorem after_add (s : Stream) (k m : Nat) : s.after (k + m) = (s.after k).after m := by
  induction k generalizing s with
  | zero => rw [Nat.zero_add, after]
  | succ k ih => rw [Nat.succ_add, after, after, ih]

/-! ## Behind the end of a stream

A stream that has nothing to give stays as it is, and a failure marks it for good. -/

variable {s : Stream}

theorem next_of_failed (h : s.failed = true) : s.next = (none, s) := by
  rw [next, h, Bool.true_or, if_pos rfl]

theorem next_of_isEmpty (h : s.reader.isEmpty = true) : s.next = (none, s) := by
  rw [next, h, Bool.or_true, if_pos rfl]

theorem next_cases (s : Stream) :
    s.next = (none, s) ∨ (∃ i reader, s.next = (some (.ok i), { s with reader })) ∨
      ∃ err reader, s.next = (some (.error err), { s with reader, failed := true }) := by
  rw [next]
  split
  · exact .inl rfl
  · split
    · next i reader _ => exact .inr (.inl ⟨i, reader, rfl⟩)
    · next err reader _ => exact .inr (.inr ⟨err, reader, rfl⟩)

theorem after_of_next_none (h : s.next = (none, s)) (k : Nat) : s.after k = s := by
  induction k with
  | zero => rfl
  | succ k ih => rw [after, h, ih]

/-- Whoever got nothing, or a failure, gets nothing from then on. -/
theorem next_after_end (h : s.next.1 = none ∨ ∃ err, s.next.1 = some (.error err)) (k : Nat) :
    (s.after (k + 1)).next.1 = none := by
  rw [after]
  rcases s.next_cases with hnext | ⟨i, reader, hnext⟩ | ⟨err, reader, hnext⟩
  · rw [hnext, after_of_next_none hnext, hnext]
  · rw [hnext] at h
    rcases h with h | ⟨err, h⟩ <;> cases h
  · have hover : s.next.2.next = (none, s.next.2) := by
      rw [hnext]
      exact next_of_failed rfl
    rw [after_of_next_none hover, hover]

/-- The stream of a buffer when it has come to an offset. -/
def ofOffset (e : Engine) (bytes : List UInt8) (start : UInt64) (offset : Nat) : Stream :=
  { engine := e, reader := Reader.ofPosition bytes offset, start }

variable {e : Engine} {bytes : List UInt8} {start : UInt64} {offset : Nat} {i : Instruction}

theorem position_ofOffset (h : offset ≤ bytes.length) :
    (ofOffset e bytes start offset).position = offset :=
  Reader.ofPosition_position h

theorem next_ofOffset_end :
    (ofOffset e bytes start bytes.length).next = (none, ofOffset e bytes start bytes.length) := by
  refine next_of_isEmpty ?_
  simp [ofOffset, Reader.isEmpty, Reader.remaining, Reader.ofPosition]

theorem next_ofOffset (h : offset < bytes.length) :
    (ofOffset e bytes start offset).next =
      match e.decodeAt (Reader.ofPosition bytes offset) (Engine.addressAt start offset) with
      | .ok i reader => (some (.ok i), { ofOffset e bytes start offset with reader })
      | .error err reader =>
        (some (.error err), { ofOffset e bytes start offset with reader, failed := true }) := by
  have hopen : ¬ ((ofOffset e bytes start offset).failed ||
      (ofOffset e bytes start offset).reader.isEmpty) = true := by
    simp only [ofOffset, Reader.isEmpty, Reader.remaining, Reader.ofPosition, Bool.false_or,
      beq_iff_eq]
    omega
  rw [next, if_neg hopen, position_ofOffset (Nat.le_of_lt h)]
  rfl

theorem next_ofOffset_ok {next : Nat} (hinside : offset < bytes.length)
    (h : e.decodeOne bytes offset (Engine.addressAt start offset) = .ok (i, next)) :
    (ofOffset e bytes start offset).next = (some (.ok i), ofOffset e bytes start next) := by
  rw [next_ofOffset hinside, Engine.decodeAt_of_decodeOne_ok h]
  rfl

theorem next_ofOffset_error {err : DecodeError} (hinside : offset < bytes.length)
    (h : e.decodeOne bytes offset (Engine.addressAt start offset) = .error err) :
    (ofOffset e bytes start offset).next =
      (some (.error err), { ofOffset e bytes start offset with failed := true }) := by
  rw [next_ofOffset hinside, Engine.decodeAt_of_decodeOne_error (Nat.le_of_lt hinside) h]
  rfl

end Stream

/-- What a listing gives to a caller who asks for its instructions one by one, and for the failure
behind them. -/
def Listing.outcomes (l : Listing) : List (Except DecodeError Instruction) :=
  (l.items.filterMap Item.instruction?).map .ok ++ l.error.toList.map .error

namespace Engine

variable {e : Engine} {bytes : List UInt8} {start : UInt64} {offset : Nat} {l : Listing}

/-- A stream at the offset of a walk answers every call with the next outcome of the walk, and
stands where the items that it has given end. -/
theorem Walk.stream (h : Walk (e.unbounded .stop) bytes start none offset l) (k : Nat) :
    ((Stream.ofOffset e bytes start offset).after k).next.1 = l.outcomes[k]? ∧
      ((Stream.ofOffset e bytes start offset).after k).position =
        (l.items.take k).foldl (fun n item => n + item.length) offset := by
  induction h using Walk.unbounded_induction generalizing k with
  | atEnd =>
      have hnext : (Stream.ofOffset e bytes start bytes.length).next = (none, _) :=
        Stream.next_ofOffset_end
      rw [Stream.after_of_next_none hnext, hnext, Stream.position_ofOffset (Nat.le_refl _)]
      exact ⟨rfl, by rw [finished, List.take_nil, List.foldl_nil]⟩
  | decoded inside found _ ih =>
      rw [decodeOne_unbounded] at found
      have hnext := Stream.next_ofOffset_ok inside found
      cases k with
      | zero =>
          rw [Stream.after, hnext, Stream.position_ofOffset (Nat.le_of_lt inside)]
          exact ⟨rfl, rfl⟩
      | succ k =>
          rw [Stream.after, hnext]
          exact ih k
  | stopped inside failed =>
      rw [decodeOne_unbounded] at failed
      have hnext := Stream.next_ofOffset_error inside failed
      have hat : (Stream.ofOffset e bytes start _).position = _ :=
        Stream.position_ofOffset (Nat.le_of_lt inside)
      cases k with
      | zero =>
          rw [Stream.after, hnext, hat]
          exact ⟨rfl, rfl⟩
      | succ k =>
          -- the failure is behind, and the reader where it was
          rw [Stream.after, hnext, Stream.after_of_next_none (Stream.next_of_failed rfl),
            Stream.next_of_failed rfl]
          exact ⟨rfl, hat⟩
  | stepped _ _ policy => cases policy

/-- A stream gives, call by call, the instructions of the walk that ends at failures and has no
bound, then the failure of that walk if it has one, and then nothing. After `k` calls it stands
where the first `k` of these instructions end; the call that fails does not move it. A call that
gave nothing, or a failure, is followed by calls that give nothing. -/
theorem stream_yields_listing (e : Engine) (bytes : List UInt8) (start : UInt64) (k : Nat) :
    let l := (e.unbounded .stop).listing bytes start
    let s := (e.stream bytes start).after k
    s.next.1 = l.outcomes[k]? ∧
      s.position = (l.items.take k).foldl (fun n item => n + item.length) 0 ∧
      (l.items.length ≤ k → s.position = l.consumed) ∧
      ((s.next.1 = none ∨ ∃ err, s.next.1 = some (.error err)) →
        ∀ m > k, ((e.stream bytes start).after m).next.1 = none) := by
  have hwalk := (e.unbounded .stop).listing_isWalk bytes start
  obtain ⟨hnext, hposition⟩ := Walk.stream hwalk k
  refine ⟨hnext, hposition, fun hle => ?_, fun hend m hm => ?_⟩
  · rw [hwalk.tiles.stop_eq, ← List.take_of_length_le hle]
    exact hposition
  · obtain ⟨n, rfl⟩ := Nat.exists_eq_add_of_lt hm
    rw [Nat.add_assoc, Stream.after_add]
    exact Stream.next_after_end hend n

/-- A `nop`, and behind it a word that no row has. The engine was told to step over bytes, and to
end after one item; the stream does neither. -/
theorem stream_yields_listing_nop :
    let e := mipsOf32.withOptions { onError := .skipByte, maxInstructions := 1 }
    let s := e.stream [0, 0, 0, 0, 0, 0, 0, 0xfc] 0
    (s.after 1).next.1 = some (.error ⟨4, .unknownOpcode⟩) ∧ (s.after 1).position = 4 ∧
      ∀ m > 1, (s.after m).next.1 = none := by
  have hlisting : let l := ((mipsOf32.withOptions { onError := .skipByte, maxInstructions := 1 }
        ).unbounded .stop).listing [0, 0, 0, 0, 0, 0, 0, 0xfc] 0
      l.outcomes[1]? = some (.error ⟨4, .unknownOpcode⟩) ∧ l.items.length ≤ 1 ∧
        l.consumed = 4 := by
    decide +kernel
  obtain ⟨hsecond, hcount, hconsumed⟩ := hlisting
  obtain ⟨hnext, -, hposition, hend⟩ := stream_yields_listing
    (mipsOf32.withOptions { onError := .skipByte, maxInstructions := 1 })
    [0, 0, 0, 0, 0, 0, 0, 0xfc] 0 1
  rw [hsecond] at hnext
  exact ⟨hnext, (hposition hcount).trans hconsumed, hend (.inr ⟨_, hnext⟩)⟩

end Engine

end MachineCode
