import MachineCode.Proofs.Walk
import Mathlib.Data.List.TakeWhile

/-!
# Options of a walk

What a walk does with a failure, and for how many items it goes on, are choices of
the caller that never reach the decoder. Walks that differ in them alone find the
same instructions at the same offsets, so they go in lockstep until one of them
ends; nothing that the longer one does afterwards can be seen in the shorter one.

A walk that ends at failures is thus the beginning of the walk that steps over
them, up to the first byte that was stepped over. And a walk with a bound is the
beginning of the walk without one. It does not look at what comes behind its last
item, which is why a failure there is not reported.
-/

namespace MachineCode

open Bytes Read

/-- Whether the item is a byte that was stepped over. -/
def Item.isSkipped : Item → Bool
  | .instruction _ => false
  | .skipped .. => true

namespace Engine

/-- The engine with this policy, and no bound on the number of items. -/
def unbounded (e : Engine) (policy : ErrorPolicy) : Engine :=
  e.withOptions { e.options with onError := policy, maxInstructions := 0 }

/-- The engine with this bound on the number of items; zero for none. -/
def bounded (e : Engine) (k : UInt64) : Engine :=
  e.withOptions { e.options with maxInstructions := k }

variable {e : Engine} {bytes : List UInt8} {start : UInt64} {offset : Nat} {budget : Option Nat}
  {l l' : Listing}

theorem decodeOne_withOptions (e : Engine) {o : Options} (h : o.detail = e.options.detail)
    (bytes : List UInt8) (offset : Nat) (address : UInt64) :
    (e.withOptions o).decodeOne bytes offset address = e.decodeOne bytes offset address := by
  have hstages : (e.withOptions o).stages address = e.stages address := by
    simp only [stages, withOptions, h]
  simp only [decodeOne, decodeAt, runStages, hstages]
  rfl

theorem decodeOne_unbounded (e : Engine) (policy : ErrorPolicy) (bytes : List UInt8)
    (offset : Nat) (address : UInt64) :
    (e.unbounded policy).decodeOne bytes offset address = e.decodeOne bytes offset address :=
  e.decodeOne_withOptions rfl bytes offset address

theorem decodeOne_bounded (e : Engine) (k : UInt64) (bytes : List UInt8) (offset : Nat)
    (address : UInt64) :
    (e.bounded k).decodeOne bytes offset address = e.decodeOne bytes offset address :=
  e.decodeOne_withOptions rfl bytes offset address

/-- How the listing of a walk that ends at failures stands to the listing of one that steps over
them. -/
inductive HaltsAlong (start : UInt64) (stop skip : Listing) : Prop where
  /-- No failure was met. -/
  | throughout (error_eq : stop.error = none) (items_eq : skip.items = stop.items)
  /-- Where the one ends with a failure, the other steps over a byte. -/
  | upTo {err : DecodeError} {b : UInt8} {rest : List Item} (error_eq : stop.error = some err)
      (offset_eq : err.offset = stop.consumed)
      (items_eq : skip.items =
        stop.items ++ .skipped stop.consumed (addressAt start stop.consumed) b :: rest)

theorem HaltsAlong.push (h : HaltsAlong start l l') (item : Item) :
    HaltsAlong start (l.push item) (l'.push item) := by
  cases h with
  | throughout error_eq items_eq => exact .throughout error_eq (congrArg (item :: ·) items_eq)
  | upTo error_eq offset_eq items_eq =>
      exact .upTo error_eq offset_eq (congrArg (item :: ·) items_eq)

theorem Walk.haltsAlong (h : Walk (e.unbounded .stop) bytes start none offset l) :
    ∃ l', Walk (e.unbounded .skipByte) bytes start none offset l' ∧ HaltsAlong start l l' := by
  induction h using Walk.unbounded_induction with
  | atEnd => exact ⟨_, .atEnd none, .throughout rfl rfl⟩
  | decoded inside found _ ih =>
      obtain ⟨l', hwalk, halts⟩ := ih
      rw [decodeOne_unbounded, ← decodeOne_unbounded e .skipByte] at found
      exact ⟨_, .decoded none_unspent inside found hwalk, halts.push _⟩
  | stopped inside failed =>
      have hoffset := (refuses_of_decodeOne (Nat.le_of_lt inside) failed).1
      rw [decodeOne_unbounded, ← decodeOne_unbounded e .skipByte] at failed
      -- what the other walk finds behind the byte does not matter
      have hrest := (e.unbounded .skipByte).walk_isWalk bytes start none _ inside
      exact ⟨_, .stepped none_unspent (List.getElem?_eq_getElem inside) failed rfl hrest,
        .upTo rfl hoffset rfl⟩
  | stepped _ _ policy => cases policy

theorem HaltsAlong.takeWhile (h : HaltsAlong start l l')
    (hl : ∀ item ∈ l.items, ∃ i, item = .instruction i) :
    l.items = l'.items.takeWhile (fun item => !item.isSkipped) := by
  have hkept : ∀ item ∈ l.items, (!item.isSkipped) = true := by
    intro item hmem
    obtain ⟨i, rfl⟩ := hl item hmem
    rfl
  cases h with
  | throughout _ items_eq => rw [items_eq, List.takeWhile_eq_self_iff.mpr hkept]
  | upTo _ _ items_eq =>
      rw [items_eq, List.takeWhile_append_of_pos hkept,
        List.takeWhile_cons_of_neg Bool.false_ne_true, List.append_nil]

theorem HaltsAlong.error_isSome_iff (h : HaltsAlong start l l')
    (hl : ∀ item ∈ l.items, ∃ i, item = .instruction i) :
    l.error.isSome = true ↔ ∃ item ∈ l'.items, item.isSkipped = true := by
  cases h with
  | throughout error_eq items_eq =>
      rw [error_eq, items_eq]
      refine iff_of_false (by simp) ?_
      rintro ⟨item, hmem, hskipped⟩
      obtain ⟨i, rfl⟩ := hl item hmem
      cases hskipped
  | upTo error_eq _ items_eq =>
      rw [error_eq, items_eq]
      exact iff_of_true rfl ⟨_, List.mem_append_right _ List.mem_cons_self, rfl⟩

/-- A walk that ends at failures shows the longest beginning of what a walk that steps over them
shows in which no byte was stepped over. It reports a failure if and only if the other one steps
over a byte; the first such byte is then the next item, at the offset where the walk ended, which
is the offset of the report, and at the address of that offset. -/
theorem listing_stop_along_skip (e : Engine) (bytes : List UInt8) (start : UInt64) :
    let stop := (e.unbounded .stop).listing bytes start
    let skip := (e.unbounded .skipByte).listing bytes start
    stop.items = skip.items.takeWhile (fun item => !item.isSkipped) ∧
      (stop.error.isSome = true ↔ ∃ item ∈ skip.items, item.isSkipped = true) ∧
      ∀ err, stop.error = some err → err.offset = stop.consumed ∧
        ∃ b rest, skip.items =
          stop.items ++ .skipped stop.consumed (addressAt start stop.consumed) b :: rest := by
  have hstop := (e.unbounded .stop).listing_isWalk bytes start
  have hitems := hstop.instruction_of_stop rfl
  obtain ⟨l', hskip, halts⟩ := Walk.haltsAlong hstop
  rw [hskip.eq_listing] at halts
  refine ⟨halts.takeWhile hitems, halts.error_isSome_iff hitems, fun err herror => ?_⟩
  cases halts with
  | throughout error_eq =>
      rw [error_eq] at herror
      cases herror
  | upTo error_eq offset_eq items_eq =>
      rw [error_eq] at herror
      cases herror
      exact ⟨offset_eq, _, _, items_eq⟩

/-- A `nop`, and behind it a word that no row has: there the one walk ends, and the other steps
over a byte. -/
theorem listing_stop_along_skip_nop :
    let bytes := [0, 0, 0, 0, 0, 0, 0, 0xfc]
    let stop := (mipsOf32.unbounded .stop).listing bytes 0xfffffffffffffffc
    let skip := (mipsOf32.unbounded .skipByte).listing bytes 0xfffffffffffffffc
    stop.error = some ⟨4, .unknownOpcode⟩ ∧ stop.consumed = 4 ∧
      ∃ b rest, skip.items = stop.items ++ .skipped 4 0 b :: rest := by
  have herror : ((mipsOf32.unbounded .stop).listing [0, 0, 0, 0, 0, 0, 0, 0xfc]
      0xfffffffffffffffc).error = some ⟨4, .unknownOpcode⟩ := by
    decide +kernel
  obtain ⟨-, -, hfailed⟩ :=
    listing_stop_along_skip mipsOf32 [0, 0, 0, 0, 0, 0, 0, 0xfc] 0xfffffffffffffffc
  obtain ⟨hoffset, b, rest, hitems⟩ := hfailed _ herror
  rw [← hoffset] at hitems
  exact ⟨herror, hoffset.symm, b, rest, hitems⟩

theorem Walk.bounded (k : UInt64) (h : Walk e bytes start budget offset l) :
    Walk (e.bounded k) bytes start budget offset l := by
  induction h with
  | atEnd budget => exact .atEnd budget
  | atLimit inside => exact .atLimit inside
  | decoded unspent inside found _ ih =>
      rw [← decodeOne_bounded e k] at found
      exact .decoded unspent inside found ih
  | stopped unspent inside failed policy =>
      rw [← decodeOne_bounded e k] at failed
      exact .stopped unspent inside failed policy
  | stepped unspent here failed policy _ ih =>
      rw [← decodeOne_bounded e k] at failed
      exact .stepped unspent here failed policy ih

/-- How the listing of a walk for at most `k` items stands to that of the walk without a bound. -/
structure FirstOf (k : Nat) (whole part : Listing) : Prop where
  items_eq : part.items = whole.items.take k
  /-- With room for a further item, the walk ends as it would without a bound. -/
  eq_of_lt : whole.items.length < k → part = whole
  /-- Without, it does not look for one. -/
  error_of_le : k ≤ whole.items.length → part.error = none

namespace FirstOf

variable {k : Nat} {whole part : Listing}

theorem zero (e : Engine) (offset : Nat) (whole : Listing) :
    FirstOf 0 whole (e.finished offset none) where
  items_eq := rfl
  eq_of_lt hlt := absurd hlt (Nat.not_lt_zero _)
  error_of_le _ := rfl

theorem push (h : FirstOf k whole part) (item : Item) :
    FirstOf (k + 1) (whole.push item) (part.push item) where
  items_eq := congrArg (item :: ·) h.items_eq
  eq_of_lt hlt := congrArg (Listing.push item) (h.eq_of_lt (Nat.lt_of_succ_lt_succ hlt))
  error_of_le hle := h.error_of_le (Nat.le_of_succ_le_succ hle)

theorem error_eq (h : FirstOf k whole part) :
    part.error = if whole.items.length < k then whole.error else none := by
  split
  · next hlt => rw [h.eq_of_lt hlt]
  · next hge => exact h.error_of_le (Nat.le_of_not_lt hge)

end FirstOf

theorem Walk.firstOf (h : Walk e bytes start none offset l) (k : Nat) :
    ∃ part, Walk e bytes start (some k) offset part ∧ FirstOf k l part := by
  induction h using Walk.unbounded_induction generalizing k with
  | atEnd => exact ⟨_, .atEnd (some k), List.take_nil.symm, fun _ => rfl, fun _ => rfl⟩
  | stopped inside failed policy =>
      cases k with
      | zero => exact ⟨_, .atLimit inside, .zero e _ _⟩
      | succ k =>
          exact ⟨_, .stopped (succ_unspent k) inside failed policy, rfl, fun _ => rfl,
            fun hle => absurd hle (Nat.not_succ_le_zero k)⟩
  | decoded inside found _ ih =>
      cases k with
      | zero => exact ⟨_, .atLimit inside, .zero e _ _⟩
      | succ k =>
          obtain ⟨part, hwalk, hfirst⟩ := ih k
          exact ⟨_, .decoded (succ_unspent k) inside found hwalk, hfirst.push _⟩
  | stepped here failed policy _ ih =>
      cases k with
      | zero => exact ⟨_, .atLimit (List.getElem?_eq_some_iff.mp here).1, .zero e _ _⟩
      | succ k =>
          obtain ⟨part, hwalk, hfirst⟩ := ih k
          exact ⟨_, .stepped (succ_unspent k) here failed policy hwalk, hfirst.push _⟩

-- there are no more items than bytes, so that such a bound always leaves room
theorem walk_limit (hmax : e.options.maxInstructions = 0)
    (hbytes : bytes.length < UInt64.size - 1) :
    e.walk (some e.options.limit) 0 start bytes = e.listing bytes start := by
  have hlimit := limit?_eq_none hmax
  have hwhole := e.listing_isWalk bytes start
  have hroom : (e.listing bytes start).items.length < e.options.limit := by
    have hcount := hwhole.tiles.length_le
    have hle := hwhole.consumed_le
    rw [Options.limit, hlimit, Option.getD_none]
    omega
  rw [hlimit] at hwhole
  obtain ⟨part, hpart, hfirst⟩ := hwhole.firstOf e.options.limit
  rw [← hfirst.eq_of_lt hroom]
  exact (e.walk_zero_isWalk bytes start _).unique hpart

/-- A walk for at most `k` items shows the first items of the walk without a bound, as many as
there are up to `k`, and ends behind the last of them. It reports the failure that ended the walk
without a bound if that one came to fewer than `k` items, and none otherwise. On a buffer with
fewer bytes than the greatest 64-bit number, that number is as good as no bound. -/
theorem listing_bounded (e : Engine) (bytes : List UInt8) (start : UInt64) {k : UInt64}
    (hk : 1 ≤ k) :
    let whole := (e.bounded 0).listing bytes start
    let part := (e.bounded k).listing bytes start
    part.items = whole.items.take (min k.toNat whole.items.length) ∧
      part.consumed = part.covered ∧
      part.error = (if whole.items.length < k.toNat then whole.error else none) ∧
      (bytes.length < UInt64.size - 1 →
        (e.bounded 0).walk (some (e.bounded 0).options.limit) 0 start bytes = whole) := by
  have hne : k ≠ 0 := by
    rintro rfl
    exact absurd hk (by decide)
  have hlimit : (e.bounded k).options.limit? = some k.toNat := if_neg hne
  have hwhole := (e.bounded 0).listing_isWalk bytes start
  obtain ⟨part, hwalk, hfirst⟩ := Walk.firstOf hwhole k.toNat
  have hbounded := hwalk.bounded k
  rw [← hlimit] at hbounded
  have hpart : part = (e.bounded k).listing bytes start := Walk.eq_listing hbounded
  rw [← hpart]
  refine ⟨?_, hwalk.tiles.stop_eq, hfirst.error_eq, walk_limit rfl⟩
  rw [hfirst.items_eq]
  exact List.take_eq_take_min

/-- A `nop`, and behind it a word that no row has: a bound of one item hides the failure, and a
bound of two does not. -/
theorem listing_bounded_nop :
    let bytes := [0, 0, 0, 0, 0, 0, 0, 0xfc]
    let whole := (mipsOf32.bounded 0).listing bytes 0
    (whole.items.length = 1 ∧ whole.error = some ⟨4, .unknownOpcode⟩) ∧
      ((mipsOf32.bounded 1).listing bytes 0).items = whole.items ∧
      ((mipsOf32.bounded 1).listing bytes 0).error = none ∧
      ((mipsOf32.bounded 2).listing bytes 0).error = some ⟨4, .unknownOpcode⟩ ∧
      (mipsOf32.bounded 0).walk (some (UInt64.size - 1)) 0 0 bytes = whole := by
  have hwhole : ((mipsOf32.bounded 0).listing [0, 0, 0, 0, 0, 0, 0, 0xfc] 0).items.length = 1 ∧
      ((mipsOf32.bounded 0).listing [0, 0, 0, 0, 0, 0, 0, 0xfc] 0).error =
        some ⟨4, .unknownOpcode⟩ := by
    decide +kernel
  obtain ⟨hcount, herror⟩ := hwhole
  obtain ⟨hitems, -, hone, -⟩ := listing_bounded mipsOf32 [0, 0, 0, 0, 0, 0, 0, 0xfc] 0
    (show (1 : UInt64) ≤ 1 by decide)
  obtain ⟨-, -, htwo, hlimit⟩ := listing_bounded mipsOf32 [0, 0, 0, 0, 0, 0, 0, 0xfc] 0
    (show (1 : UInt64) ≤ 2 by decide)
  rw [hcount] at hitems hone htwo
  refine ⟨⟨hcount, herror⟩, ?_, hone, htwo.trans herror, hlimit (by decide)⟩
  rw [hitems]
  exact List.take_of_length_le (Nat.le_of_eq hcount)

end Engine

end MachineCode
