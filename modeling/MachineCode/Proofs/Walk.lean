import MachineCode.Listing
import MachineCode.Proofs.Truncation

/-!
# Walks over a buffer

A walk decodes, steps, and decodes again. What it does at one offset depends on
the whole buffer only through `decodeOne` there, so a walk is a chain of steps
that each say what was found at an offset and where the next step begins. The
chain is the relation `Walk`; the walk of an engine is proved to be one, once,
and everything that holds of walks is then an induction over the chain. From one
place there is only one chain, so to know a listing it is enough to find a walk.

The main statement is that the items of a listing tile the buffer: each begins
where the one before ends, the first at the beginning, and together they reach
the offset where the walk ended. Every item covers a byte, which is why a walk
ends at all.
-/

namespace MachineCode

open Bytes Read

namespace Engine

variable {e : Engine} {bytes : List UInt8} {start address : UInt64} {offset : Nat}
  {i : Instruction} {fault : Fault}

/-- What is decoded from the bytes behind an offset is what is decoded at the offset, and it ends
within the buffer. -/
theorem decodeOne_of_decode_ok (hoffset : offset ≤ bytes.length)
    (h : e.decode address (bytes.drop offset) = .ok i) :
    e.decodeOne bytes offset address = .ok (i, offset + i.length.toNat) ∧
      1 ≤ i.length.toNat ∧ offset + i.length.toNat ≤ bytes.length := by
  rcases e.stages_settles address (bytes.drop offset) with
    ⟨taken, rest, j, hrest, ht⟩ | ⟨fault, hr⟩
  · obtain ⟨hspells, hmin, -⟩ := stages_takes ht
    have hpos := Nat.le_trans (minLength_pos e.architecture) hmin
    have hfits : offset + taken.length ≤ bytes.length := by
      have hlen := congrArg List.length hrest
      rw [List.length_drop, List.length_append] at hlen
      omega
    rw [decode, hrest, ht 0 rest] at h
    cases h
    rw [hspells.length_eq]
    exact ⟨decodeOne_of_takes hoffset hrest ht, hpos, hfits⟩
  · obtain ⟨raised, t, hrun, -⟩ := hr.run 0
    rw [decode, hrun] at h
    cases h

/-- A decoded instruction has the address it was decoded for, and at least one byte. -/
theorem address_of_decodeOne {next : Nat}
    (h : e.decodeOne bytes offset address = .ok (i, next)) :
    i.address = address ∧ 1 ≤ i.length.toNat := by
  obtain ⟨taken, rest, -, -, ht, -⟩ := takes_of_decodeOne h
  obtain ⟨hspells, hmin, -⟩ := stages_takes ht
  rw [hspells.length_eq]
  exact ⟨hspells.address_eq, Nat.le_trans (minLength_pos e.architecture) hmin⟩

theorem decodeOne_of_decode_error (hoffset : offset ≤ bytes.length)
    (h : e.decode address (bytes.drop offset) = .error fault) :
    e.decodeOne bytes offset address = .error ⟨offset, fault⟩ := by
  rcases e.stages_settles address (bytes.drop offset) with
    ⟨taken, rest, j, hrest, ht⟩ | ⟨fault', hr⟩
  · rw [decode, hrest, ht 0 rest] at h
    cases h
  · obtain ⟨raised, t, hrun, hfault⟩ := hr.run 0
    rw [decode, hrun] at h
    cases h
    rw [hfault]
    exact decodeOne_of_refuses hoffset hr

/-- A walk that ends at an offset without a further item. -/
def finished (e : Engine) (offset : Nat) (error : Option DecodeError) : Listing :=
  { items := [], error, consumed := offset, dataMnemonic := e.options.dataMnemonic }

/-- The address of an offset in a buffer that begins at `start`. -/
def addressAt (start : UInt64) (offset : Nat) : UInt64 :=
  start + UInt64.ofNat offset

/-- A walk over a buffer, from an offset on and for at most `budget` items, comes to a listing. -/
inductive Walk (e : Engine) (bytes : List UInt8) (start : UInt64) :
    Option Nat → Nat → Listing → Prop where
  /-- No byte is left. -/
  | atEnd (budget : Option Nat) : Walk e bytes start budget bytes.length
      (e.finished bytes.length none)
  /-- The budget is used up. -/
  | atLimit {offset : Nat} (inside : offset < bytes.length) :
      Walk e bytes start (some 0) offset (e.finished offset none)
  /-- An instruction, and the walk behind it. -/
  | decoded {budget : Option Nat} {offset : Nat} {i : Instruction} {l : Listing}
      (unspent : budget ≠ some 0) (inside : offset < bytes.length)
      (found : e.decodeOne bytes offset (addressAt start offset) =
        .ok (i, offset + i.length.toNat))
      (rest : Walk e bytes start (budget.map (· - 1)) (offset + i.length.toNat) l) :
      Walk e bytes start budget offset (l.push (.instruction i))
  /-- A failure that ends the walk. -/
  | stopped {budget : Option Nat} {offset : Nat} {err : DecodeError}
      (unspent : budget ≠ some 0) (inside : offset < bytes.length)
      (failed : e.decodeOne bytes offset (addressAt start offset) = .error err)
      (policy : e.options.onError = .stop) :
      Walk e bytes start budget offset (e.finished offset (some err))
  /-- A failure that is stepped over, and the walk behind the byte. -/
  | stepped {budget : Option Nat} {offset : Nat} {err : DecodeError} {b : UInt8} {l : Listing}
      (unspent : budget ≠ some 0) (here : bytes[offset]? = some b)
      (failed : e.decodeOne bytes offset (addressAt start offset) = .error err)
      (policy : e.options.onError = .skipByte)
      (rest : Walk e bytes start (budget.map (· - 1)) (offset + 1) l) :
      Walk e bytes start budget offset
        (l.push (.skipped offset (addressAt start offset) b))

theorem addressAt_add (start : UInt64) (offset n : Nat) :
    addressAt start offset + UInt64.ofNat n = addressAt start (offset + n) := by
  rw [addressAt, addressAt, UInt64.ofNat_add, UInt64.add_assoc]

/-- The walk of an engine is a chain of steps. -/
theorem walk_isWalk (e : Engine) (bytes : List UInt8) (start : UInt64) (budget : Option Nat)
    (offset : Nat) (hoffset : offset ≤ bytes.length) :
    Walk e bytes start budget offset
      (e.walk budget offset (addressAt start offset) (bytes.drop offset)) := by
  -- the bytes that are left get fewer with every step
  generalize hleft : bytes.length - offset = left
  induction left using Nat.strong_induction_on generalizing budget offset with
  | _ left ih =>
      cases hrest : bytes.drop offset with
      | nil =>
          have hend : offset = bytes.length :=
            Nat.le_antisymm hoffset (List.drop_eq_nil_iff.mp hrest)
          subst hend
          rw [walk]
          exact .atEnd budget
      | cons b bs =>
          have hinside : offset < bytes.length := by
            have hlen := congrArg List.length hrest
            rw [List.length_drop, List.length_cons] at hlen
            omega
          have hhere : bytes[offset]? = some b := by
            rw [← List.head?_drop, hrest]
            rfl
          have hbehind : bs = bytes.drop (offset + 1) := by
            rw [← List.tail_drop, hrest]
            rfl
          rw [walk]
          simp only
          split
          · next hbudget =>
              subst hbudget
              exact .atLimit hinside
          · next hopen =>
              split
              · next i hdecode =>
                  rw [← hrest] at hdecode
                  obtain ⟨hfound, hpos, hfits⟩ := decodeOne_of_decode_ok hoffset hdecode
                  have hn : i.length.toNat - 1 + 1 = i.length.toNat := by omega
                  have hdrop : bs.drop (i.length.toNat - 1) =
                      bytes.drop (offset + i.length.toNat) := by
                    rw [hbehind, List.drop_drop, Nat.add_assoc, Nat.add_comm 1, hn]
                  rw [Nat.add_assoc, hn, addressAt_add, hdrop]
                  exact .decoded hopen hinside hfound (ih _ (by omega) _ _ hfits rfl)
              · next fault hdecode =>
                  rw [← hrest] at hdecode
                  have hfailed := decodeOne_of_decode_error hoffset hdecode
                  split
                  · next hpolicy => exact .stopped hopen hinside hfailed hpolicy
                  · next hpolicy =>
                      rw [hbehind, show (1 : UInt64) = UInt64.ofNat 1 from rfl, addressAt_add]
                      exact .stepped hopen hhere hfailed hpolicy
                        (ih _ (by omega) _ _ hinside rfl)

/-- From one place there is one walk: the buffer, the budget and what decodes at the offset say
which step is taken. -/
theorem Walk.unique {budget : Option Nat} {l l' : Listing} (h : Walk e bytes start budget offset l)
    (h' : Walk e bytes start budget offset l') : l = l' := by
  induction h generalizing l' with
  | atEnd =>
      cases h' with
      | atEnd => rfl
      | atLimit inside | decoded _ inside | stopped _ inside =>
          exact absurd inside (Nat.lt_irrefl _)
      | stepped _ here => exact absurd (List.getElem?_eq_some_iff.mp here).1 (Nat.lt_irrefl _)
  | atLimit =>
      cases h' with
      | atEnd | atLimit => rfl
      | decoded unspent | stopped unspent | stepped unspent => exact absurd rfl unspent
  | decoded unspent inside found _ ih =>
      cases h' with
      | atEnd => exact absurd inside (Nat.lt_irrefl _)
      | atLimit => exact absurd rfl unspent
      | decoded _ _ found' rest' =>
          rw [found] at found'
          cases found'
          rw [ih rest']
      | stopped _ _ failed | stepped _ _ failed =>
          rw [found] at failed
          cases failed
  | stopped unspent inside failed policy =>
      cases h' with
      | atEnd => exact absurd inside (Nat.lt_irrefl _)
      | atLimit => exact absurd rfl unspent
      | decoded _ _ found =>
          rw [failed] at found
          cases found
      | stopped _ _ failed' =>
          rw [failed] at failed'
          cases failed'
          rfl
      | stepped _ _ _ policy' =>
          rw [policy] at policy'
          cases policy'
  | stepped unspent here failed policy _ ih =>
      cases h' with
      | atEnd => exact absurd (List.getElem?_eq_some_iff.mp here).1 (Nat.lt_irrefl _)
      | atLimit => exact absurd rfl unspent
      | decoded _ _ found =>
          rw [failed] at found
          cases found
      | stopped _ _ _ policy' =>
          rw [policy] at policy'
          cases policy'
      | stepped _ here' _ _ rest' =>
          rw [here] at here'
          cases here'
          rw [ih rest']

theorem none_unspent : (none : Option Nat) ≠ some 0 :=
  (Option.some_ne_none 0).symm

theorem succ_unspent (k : Nat) : some (k + 1) ≠ some 0 :=
  fun h => Nat.succ_ne_zero k (Option.some.inj h)

/-- Induction over a walk without a bound: the budget says nothing, and is left out. -/
@[elab_as_elim]
theorem Walk.unbounded_induction
    {motive : (offset : Nat) → (l : Listing) → Walk e bytes start none offset l → Prop}
    (atEnd : motive bytes.length (e.finished bytes.length none) (.atEnd none))
    (decoded : ∀ {offset i l} (inside : offset < bytes.length)
      (found : e.decodeOne bytes offset (addressAt start offset) =
        .ok (i, offset + i.length.toNat))
      (rest : Walk e bytes start none (offset + i.length.toNat) l), motive _ l rest →
      motive offset (l.push (.instruction i)) (.decoded none_unspent inside found rest))
    (stopped : ∀ {offset err} (inside : offset < bytes.length)
      (failed : e.decodeOne bytes offset (addressAt start offset) = .error err)
      (policy : e.options.onError = .stop),
      motive offset (e.finished offset (some err)) (.stopped none_unspent inside failed policy))
    (stepped : ∀ {offset err b l} (here : bytes[offset]? = some b)
      (failed : e.decodeOne bytes offset (addressAt start offset) = .error err)
      (policy : e.options.onError = .skipByte)
      (rest : Walk e bytes start none (offset + 1) l), motive _ l rest →
      motive offset (l.push (.skipped offset (addressAt start offset) b))
        (.stepped none_unspent here failed policy rest))
    {offset : Nat} {l : Listing} (h : Walk e bytes start none offset l) : motive offset l h := by
  -- the budget is an index of the relation, so it has to be a variable
  suffices hall : ∀ {budget : Option Nat} (h : Walk e bytes start budget offset l)
      (hbudget : budget = none), motive offset l (hbudget ▸ h) from hall h rfl
  clear h
  intro budget h hbudget
  induction h with
  | atEnd =>
      cases hbudget
      exact atEnd
  | atLimit => cases hbudget
  | decoded _ inside found rest ih =>
      cases hbudget
      exact decoded inside found rest (ih rfl)
  | stopped _ inside failed policy =>
      cases hbudget
      exact stopped inside failed policy
  | stepped _ here failed policy rest ih =>
      cases hbudget
      exact stepped here failed policy rest (ih rfl)

/-- What an item at an offset tells about the buffer: the instruction is the one that decodes
there, and a byte that was stepped over is the byte there and begins no instruction. -/
def TrueAt (e : Engine) (bytes : List UInt8) (start : UInt64) (offset : Nat) : Item → Prop
  | .instruction i =>
    e.decodeOne bytes offset (addressAt start offset) = .ok (i, offset + i.length.toNat)
  | .skipped offset' _ b => offset' = offset ∧ bytes[offset]? = some b ∧
      ∃ err, e.decodeOne bytes offset (addressAt start offset) = .error err

/-- The items lie one behind the other from an offset up to another, each with at least one byte,
with the address of its offset, and true there. -/
def Tiles (e : Engine) (bytes : List UInt8) (start : UInt64) : Nat → List Item → Nat → Prop
  | offset, [], stop => offset = stop
  | offset, item :: items, stop =>
    item.address = addressAt start offset ∧ 1 ≤ item.length ∧ e.TrueAt bytes start offset item ∧
      Tiles e bytes start (offset + item.length) items stop

variable {budget : Option Nat} {l : Listing} {items : List Item} {stop : Nat}

theorem Walk.tiles (h : Walk e bytes start budget offset l) :
    e.Tiles bytes start offset l.items l.consumed := by
  induction h with
  | atEnd => exact rfl
  | atLimit => exact rfl
  | stopped => exact rfl
  | decoded _ _ found _ ih =>
      obtain ⟨haddress, hpos⟩ := address_of_decodeOne found
      exact ⟨haddress, hpos, found, ih⟩
  | stepped _ here failed _ _ ih =>
      exact ⟨rfl, Nat.le_refl 1, ⟨rfl, here, _, failed⟩, ih⟩

/-- The end of a tiling is its beginning and the lengths of its items. -/
theorem Tiles.stop_eq (h : e.Tiles bytes start offset items stop) :
    stop = items.foldl (fun n item => n + item.length) offset := by
  induction items generalizing offset with
  | nil => exact h.symm
  | cons item items ih =>
      obtain ⟨-, -, -, hrest⟩ := h
      exact ih hrest

/-- There are no more items than bytes. -/
theorem Tiles.length_le (h : e.Tiles bytes start offset items stop) :
    offset + items.length ≤ stop := by
  induction items generalizing offset with
  | nil => exact Nat.le_of_eq h
  | cons item items ih =>
      obtain ⟨-, hpos, -, hrest⟩ := h
      have hle := ih hrest
      rw [List.length_cons]
      omega

theorem Walk.consumed_le (h : Walk e bytes start budget offset l) :
    l.consumed ≤ bytes.length := by
  induction h with
  | atEnd => exact Nat.le_refl _
  | atLimit inside => exact Nat.le_of_lt inside
  | stopped _ inside => exact Nat.le_of_lt inside
  | decoded _ _ _ _ ih => exact ih
  | stepped _ _ _ _ _ ih => exact ih

/-- A walk that ends at failures has no byte that was stepped over. -/
theorem Walk.instruction_of_stop (h : Walk e bytes start budget offset l)
    (hpolicy : e.options.onError = .stop) : ∀ item ∈ l.items, ∃ i, item = .instruction i := by
  induction h with
  | atEnd => exact fun _ hmem => nomatch hmem
  | atLimit => exact fun _ hmem => nomatch hmem
  | stopped => exact fun _ hmem => nomatch hmem
  | decoded _ _ _ _ ih =>
      intro item hmem
      rcases List.mem_cons.mp hmem with rfl | hmem
      · exact ⟨_, rfl⟩
      · exact ih item hmem
  | stepped _ _ _ policy =>
      rw [hpolicy] at policy
      cases policy

/-- A walk without a bound ends with the buffer, or at a failure that it was told to end at. -/
theorem Walk.unbounded_end (h : Walk e bytes start none offset l) :
    (l.error = none ∧ l.consumed = bytes.length) ∨
      ∃ err, l.error = some err ∧ e.options.onError = .stop ∧ l.consumed < bytes.length ∧
        e.decodeOne bytes l.consumed (addressAt start l.consumed) = .error err := by
  induction h using Walk.unbounded_induction with
  | atEnd => exact .inl ⟨rfl, rfl⟩
  | stopped inside failed policy => exact .inr ⟨_, rfl, policy, inside, failed⟩
  | decoded _ _ _ ih => exact ih
  | stepped _ _ _ _ ih => exact ih

theorem walk_zero_isWalk (e : Engine) (bytes : List UInt8) (start : UInt64)
    (budget : Option Nat) : Walk e bytes start budget 0 (e.walk budget 0 start bytes) := by
  have h := e.walk_isWalk bytes start budget 0 (Nat.zero_le _)
  rwa [List.drop_zero, addressAt, show UInt64.ofNat 0 = 0 from rfl, UInt64.add_zero] at h

theorem listing_isWalk (e : Engine) (bytes : List UInt8) (start : UInt64) :
    Walk e bytes start e.options.limit? 0 (e.listing bytes start) :=
  e.walk_zero_isWalk bytes start e.options.limit?

/-- Whatever walk is found from the beginning of a buffer, it comes to the listing. -/
theorem Walk.eq_listing (h : Walk e bytes start e.options.limit? 0 l) :
    l = e.listing bytes start :=
  h.unique (e.listing_isWalk bytes start)

theorem limit?_eq_none {o : Options} (h : o.maxInstructions = 0) : o.limit? = none :=
  if_pos h

/-- The items of a listing tile the buffer from its beginning to the offset where the walk ended,
which is the sum of their lengths; there are no more of them than bytes, so every walk ends.
Without a bound on the number of items, a walk that steps over bytes reaches the end of the buffer,
and a walk that ends at failures shows instructions alone, and either reaches the end or gives the
failure at the offset where it ended. -/
theorem listing_tiles (e : Engine) (bytes : List UInt8) (start : UInt64) :
    let l := e.listing bytes start
    e.Tiles bytes start 0 l.items l.consumed ∧
      l.consumed = l.covered ∧ l.consumed ≤ bytes.length ∧ l.items.length ≤ bytes.length ∧
      (e.options.maxInstructions = 0 → e.options.onError = .skipByte →
        l.error = none ∧ l.consumed = bytes.length) ∧
      (e.options.maxInstructions = 0 → e.options.onError = .stop →
        (∀ item ∈ l.items, ∃ i, item = .instruction i) ∧
        (l.error = none ↔ l.consumed = bytes.length) ∧
        (l.consumed ≠ bytes.length → ∃ err, l.error = some err ∧
          e.decodeOne bytes l.consumed (addressAt start l.consumed) = .error err)) := by
  have hwalk := e.listing_isWalk bytes start
  have htiles := hwalk.tiles
  have hle := hwalk.consumed_le
  have hend : e.options.maxInstructions = 0 → _ := fun hmax =>
    Walk.unbounded_end (limit?_eq_none hmax ▸ hwalk)
  refine ⟨htiles, htiles.stop_eq, hle, ?_, fun hmax hpolicy => ?_, fun hmax hpolicy => ?_⟩
  · have hcount := htiles.length_le
    omega
  · rcases hend hmax with hdone | ⟨err, -, hstop, -, -⟩
    · exact hdone
    · rw [hpolicy] at hstop
      cases hstop
  · refine ⟨hwalk.instruction_of_stop hpolicy, ?_, ?_⟩
    · rcases hend hmax with ⟨herror, hconsumed⟩ | ⟨err, herror, -, hlt, -⟩
      · exact iff_of_true herror hconsumed
      · refine iff_of_false ?_ (Nat.ne_of_lt hlt)
        rw [herror]
        exact Option.some_ne_none err
    · intro hne
      rcases hend hmax with ⟨-, hconsumed⟩ | ⟨err, herror, -, -, hfailed⟩
      · exact absurd hconsumed hne
      · exact ⟨err, herror, hfailed⟩

/-- An opcode that no row has, and a `nop`: stepping over bytes reaches the end, and otherwise the
walk ends with the failure at the opcode. -/
theorem listing_tiles_unknownOpcode :
    (let skipping := x86Of32.withOptions { onError := .skipByte }
      let l := skipping.listing [0x0f, 0x04, 0x90] 0x1000
      skipping.Tiles [0x0f, 0x04, 0x90] 0x1000 0 l.items l.consumed ∧ l.error = none ∧
        l.consumed = 3) ∧
      let l := x86Of32.listing [0x0f, 0x04, 0x90] 0x1000
      (∀ item ∈ l.items, ∃ i, item = .instruction i) ∧ (l.error = none ↔ l.consumed = 3) := by
  obtain ⟨htiles, -, -, -, hskip, -⟩ := listing_tiles
    (x86Of32.withOptions { onError := .skipByte }) [0x0f, 0x04, 0x90] 0x1000
  obtain ⟨-, -, -, -, -, hstop⟩ := listing_tiles x86Of32 [0x0f, 0x04, 0x90] 0x1000
  obtain ⟨hitems, hend, -⟩ := hstop rfl rfl
  exact ⟨⟨htiles, hskip rfl rfl⟩, hitems, hend⟩

end Engine

end MachineCode
