import MachineCode.Document.Listing
import MachineCode.Proofs.Document.Instruction
import MachineCode.Proofs.Document.Operands
import MachineCode.Proofs.Faults
import MachineCode.Proofs.Walk

/-!
# Listings read back

A listing is read back from its document if its numbers fit in 64 bits and no
operand is a floating-point number. A walk comes to such a listing whatever the
buffer holds: offsets stay inside the buffer, a failure asks for a few bytes at
most, and no encoding has a floating-point number to give. Only the buffer itself
has to be addressable, so its length is the one condition that is left.
-/

namespace MachineCode

open JsonForm Json

/-- Whether the numbers of a failure fit in 64 bits. -/
def Fault.Fits : Fault → Prop
  | .underrun needed available | .truncatedOperand needed available =>
    needed < UInt64.size ∧ available < UInt64.size
  | .excessivePrefixes count => count < UInt64.size
  | .unknownOpcode => True

theorem Fault.IsBounded.fits {f : Fault} (h : f.IsBounded) : f.Fits := by
  have hsize : (15 : Nat) < UInt64.size := by decide
  cases f with
  | underrun needed available | truncatedOperand needed available =>
      obtain ⟨hlt, hle⟩ := h
      exact ⟨by omega, by omega⟩
  | excessivePrefixes count => exact Nat.lt_of_le_of_lt h hsize
  | unknownOpcode => trivial

theorem DecodeError.readsBack {e : DecodeError} (hoffset : e.offset < UInt64.size)
    (hfault : e.fault.Fits) : ReadsBack e := by
  obtain ⟨offset, fault⟩ := e
  have hoffset := ReadsBack.nat hoffset
  constructor
  · refine isPlain_choice ?_ _
    cases fault <;> exact isPlain_record (by simp [encode, isPlain_integer, Json.nat])
  · cases fault with
    | underrun needed available | truncatedOperand needed available =>
        have hneeded := ReadsBack.nat hfault.1
        have havailable := ReadsBack.nat hfault.2
        refine namedRecord?_bind ?_ (by decide) rfl
        simp [Record.required, List.lookup_cons, hoffset.decode, hneeded.decode, havailable.decode]
    | excessivePrefixes count =>
        have hcount := ReadsBack.nat hfault
        refine namedRecord?_bind ?_ (by decide) rfl
        simp [Record.required, List.lookup_cons, hoffset.decode, hcount.decode]
    | unknownOpcode =>
        exact namedRecord?_bind (by simp [Record.required, hoffset.decode]) (by decide) rfl

/-- Whether an item is read back: an offset fits in 64 bits, and no operand is a floating-point
number. -/
def Item.IsExact : Item → Prop
  | .instruction i => ∀ o ∈ i.operands, o.IsExact
  | .skipped offset _ _ => offset < UInt64.size

theorem Item.readsBack {item : Item} (h : item.IsExact) : ReadsBack item := by
  cases item with
  | instruction i => exact (Instruction.readsBack h).choice Item.instruction rfl rfl
  | skipped offset address byte =>
      have hoffset := ReadsBack.nat h
      refine ⟨isPlain_choice (isPlain_record ?_) "Skipped", ?_⟩
      · simp [isPlain_encode, hoffset.plain]
      · refine namedRecord?_bind ?_ (by decide) rfl
        simp [Record.required, List.lookup_cons, hoffset.decode]

/-- Whether all parts of a listing are read back. -/
structure Listing.IsExact (l : Listing) : Prop where
  items : ∀ item ∈ l.items, item.IsExact
  error : ∀ e, l.error = some e → e.offset < UInt64.size ∧ e.fault.Fits
  consumed : l.consumed < UInt64.size

theorem Listing.readsBack {l : Listing} (h : l.IsExact) : ReadsBack l := by
  have hitems : ReadsBack l.items := .list fun item hitem => Item.readsBack (h.items item hitem)
  have herror (e : DecodeError) (he : l.error = some e) : ReadsBack e :=
    DecodeError.readsBack (h.error e he).1 (h.error e he).2
  have hconsumed := ReadsBack.nat h.consumed
  constructor
  · exact isPlain_record (by
      simp [isPlain_encode, hitems.plain, isPlain_ofOption herror, hconsumed.plain])
  · have hoptional (r : Json.Record) (hr : r.fields.lookup "error" = some (ofOption l.error)) :
        r.optional "error" = some l.error :=
      Record.optional_ofOption hr (fun _ => Json.noConfusion) herror
    refine record?_bind ?_ (by decide) rfl
    simp [Record.required, List.lookup_cons, hitems.decode, hoptional, hconsumed.decode]

namespace Engine

variable {e : Engine} {bytes : List UInt8} {start : UInt64} {budget : Option Nat} {offset : Nat}
  {l : Listing} {item : Item} {err : DecodeError}

theorem finished_isExact {error : Option DecodeError} (hoffset : offset < UInt64.size)
    (herror : ∀ err, error = some err → err.offset < UInt64.size ∧ err.fault.Fits) :
    (e.finished offset error).IsExact where
  items := List.forall_mem_nil _
  error := herror
  consumed := hoffset

theorem push_isExact (hitem : item.IsExact) (h : l.IsExact) : (l.push item).IsExact where
  items := List.forall_mem_cons.mpr ⟨hitem, h.items⟩
  error := h.error
  consumed := h.consumed

theorem Walk.isExact (h : Walk e bytes start budget offset l)
    (hbytes : bytes.length < UInt64.size) : l.IsExact := by
  induction h with
  | atEnd => exact finished_isExact hbytes (by simp)
  | atLimit inside => exact finished_isExact (Nat.lt_trans inside hbytes) (by simp)
  | stopped _ inside failed =>
      have hoffset := Nat.lt_trans inside hbytes
      refine finished_isExact hoffset fun err herr => ?_
      cases herr
      obtain ⟨herr, -⟩ := refuses_of_decodeOne (Nat.le_of_lt inside) failed
      exact ⟨herr ▸ hoffset, (fault_of_decodeOne failed).fits⟩
  | decoded _ _ found _ ih => exact push_isExact (operands_isExact found) ih
  | stepped _ here _ _ _ ih =>
      have inside := (List.getElem?_eq_some_iff.mp here).1
      exact push_isExact (Nat.lt_trans inside hbytes) ih

/-- Whatever engine, buffer and address a listing is of, it is given again by its document and by
the text of this; the length of a buffer is a 64-bit number, as are the offsets into it. The same
holds of every instruction that has no floating-point operand. -/
theorem listing_roundTrips (e : Engine) (bytes : List UInt8) (start : UInt64) :
    (bytes.length < UInt64.size → RoundTrips (e.listing bytes start)) ∧
      ∀ i : Instruction, (∀ o ∈ i.operands, o.IsExact) → RoundTrips i :=
  ⟨fun hbytes => (Listing.readsBack ((e.listing_isWalk bytes start).isExact hbytes)).roundTrips,
    fun _ h => (Instruction.readsBack h).roundTrips⟩

/-- A listing with a byte that was stepped over, and a load whose text needs escapes. -/
theorem listing_roundTrips_load :
    RoundTrips ((x86Of32.withOptions { onError := .skipByte }).listing [0x0f, 0x8b, 0x03] 0x1000) ∧
      RoundTrips ({
        address := 0x1001
        bytes := [0x8b, 0x03]
        mnemonic := .x86 .mov
        operandText := "eax,\t\"[ebx]\""
        operands := [.ofRegister (.x86 .eax) 32 .write, .ofMemory { base := .x86 .ebx } 32 .read]
        length := 2
        architecture := .x86
        groups := []
        implicitReads := []
        implicitWrites := [.absent]
        detail := .none } : Instruction) := by
  obtain ⟨hlisting, -⟩ := listing_roundTrips (x86Of32.withOptions { onError := .skipByte })
    [0x0f, 0x8b, 0x03] 0x1000
  obtain ⟨-, hinstruction⟩ := listing_roundTrips x86Of32 [] 0
  refine ⟨hlisting (by decide), hinstruction _ ?_⟩
  simp [Operand.isExact_ofRegister, Operand.isExact_ofMemory]

end Engine

end MachineCode
