import MachineCode.Proofs.Options
import MachineCode.Proofs.Runs

/-!
# The detail switch

Groups, implicit registers and encoding detail are made when everything else is
known, from the same parts of the same bytes. So the switch reaches a decode at
its very end: without detail a reader reads what it reads with detail, fails where
it fails, and leaves these four fields of the record empty.

A walk looks at nothing of a record but its length, so two walks that differ in
the switch alone find the same places. Lines and texts are made of address, bytes,
mnemonic and operand text, none of which is among the four fields.
-/

namespace MachineCode

open Bytes Read

/-- An instruction without its groups, its implicit registers and its encoding detail. -/
def Instruction.withoutDetail (i : Instruction) : Instruction :=
  { i with groups := [], implicitReads := [], implicitWrites := [], detail := .none }

/-- An item without detail; a byte that was stepped over has none. -/
def Item.withoutDetail : Item → Item
  | .instruction i => .instruction i.withoutDetail
  | .skipped offset address byte => .skipped offset address byte

/-- A listing without detail. -/
def Listing.withoutDetail (l : Listing) : Listing :=
  { l with items := l.items.map Item.withoutDetail }

theorem Item.line_withoutDetail (dataMnemonic : String) (item : Item) :
    item.withoutDetail.line dataMnemonic = item.line dataMnemonic := by
  cases item <;> rfl

theorem Item.text_withoutDetail (item : Item) :
    item.withoutDetail.instruction?.map Instruction.text =
      item.instruction?.map Instruction.text := by
  cases item <;> rfl

theorem Listing.lines_withoutDetail (l : Listing) : l.withoutDetail.lines = l.lines := by
  rw [lines, withoutDetail, List.map_map]
  exact List.map_congr_left fun item _ => item.line_withoutDetail _

theorem Listing.text_withoutDetail (l : Listing) : l.withoutDetail.text = l.text := by
  rw [text, lines_withoutDetail]
  rfl

theorem Listing.skipped_withoutDetail (l : Listing) :
    l.withoutDetail.items.filter Item.isSkipped = l.items.filter Item.isSkipped := by
  rw [withoutDetail]
  induction l.items with
  | nil => rfl
  | cons item items ih =>
      rw [List.map_cons]
      cases item with
      | instruction i => exact ih
      | skipped offset address byte => exact congrArg (.skipped offset address byte :: ·) ih

theorem X86.decode_withoutDetail (mode : Width) (address : UInt64) :
    X86.decode mode false address = Instruction.withoutDetail <$> X86.decode mode true address := by
  rw [X86.decode, X86.decode, map_bind]
  rfl

theorem Mips.decode_withoutDetail (v : Mips.Variant) (address : UInt64) :
    Mips.decode v false address = Instruction.withoutDetail <$> Mips.decode v true address := by
  rw [Mips.decode, Mips.decode, map_bind]
  rfl

namespace Engine

variable {e : Engine} {bytes : List UInt8} {start : UInt64} {offset : Nat} {budget : Option Nat}
  {l : Listing}

/-- The engine with the switch in this position. -/
def withDetail (e : Engine) (detail : Bool) : Engine :=
  e.withOptions { e.options with detail }

theorem stages_withoutDetail (e : Engine) (address : UInt64) :
    (e.withDetail false).stages address =
      Instruction.withoutDetail <$> (e.withDetail true).stages address := by
  cases he : e.architecture with
  | x86 =>
      have harch (detail : Bool) : (e.withDetail detail).architecture = .x86 := he
      rw [stages_x86 (harch false), stages_x86 (harch true), map_bind]
      exact congrArg _ (funext fun _ => X86.decode_withoutDetail e.mode.width address)
  | mips =>
      have harch (detail : Bool) : (e.withDetail detail).architecture = .mips := he
      rw [stages_mips (harch false), stages_mips (harch true), map_bind]
      exact congrArg _ (funext fun _ => Mips.decode_withoutDetail (.ofMode e.mode) address)

/-- The step: where one engine decodes so does the other, and where it fails the other does. -/
theorem decodeOne_withoutDetail (e : Engine) (bytes : List UInt8) (offset : Nat)
    (address : UInt64) :
    (e.withDetail false).decodeOne bytes offset address =
      ((e.withDetail true).decodeOne bytes offset address).map
        fun d => (d.1.withoutDetail, d.2) := by
  by_cases hoffset : bytes.length < offset
  · rw [decodeOne_beyond _ _ hoffset, decodeOne_beyond _ _ hoffset]
    rfl
  have hle := Nat.le_of_not_lt hoffset
  cases hrun : (e.withDetail true).stages address (Tape.ofOffset bytes offset) with
  | ok i t =>
      have hrun' := map_ok (g := Instruction.withoutDetail) hrun
      rw [← stages_withoutDetail] at hrun'
      rw [decodeOne_of_stages hle hrun, decodeOne_of_stages hle hrun']
      rfl
  | error err t =>
      have hrun' := map_error (g := Instruction.withoutDetail) hrun
      rw [← stages_withoutDetail] at hrun'
      rw [decodeOne_of_stages_error hle hrun, decodeOne_of_stages_error hle hrun']
      rfl

theorem decodeOne_withoutDetail_ok {i : Instruction} {address : UInt64} {next : Nat}
    (h : (e.withDetail true).decodeOne bytes offset address = .ok (i, next)) :
    (e.withDetail false).decodeOne bytes offset address = .ok (i.withoutDetail, next) := by
  rw [decodeOne_withoutDetail, h]
  rfl

theorem decodeOne_withoutDetail_error {address : UInt64} {err : DecodeError}
    (h : (e.withDetail true).decodeOne bytes offset address = .error err) :
    (e.withDetail false).decodeOne bytes offset address = .error err := by
  rw [decodeOne_withoutDetail, h]
  rfl

/-- With the switch on, every record has encoding detail. -/
theorem detail_ne_none_of_decodeOne {i : Instruction} {address : UInt64} {next : Nat}
    (hdetail : e.options.detail = true)
    (h : e.decodeOne bytes offset address = .ok (i, next)) : i.detail ≠ .none := by
  cases he : e.architecture with
  | x86 =>
      obtain ⟨f, body, t, -, -, rfl, -⟩ := X86.parts_of_decodeOne he h
      rw [hdetail]
      exact Detail.noConfusion
  | mips =>
      obtain ⟨w, row, operands, t, -, -, rfl, -⟩ := Mips.parts_of_decodeOne he h
      rw [hdetail]
      exact Detail.noConfusion

/-- Without detail a walk takes the same steps. -/
theorem Walk.withoutDetail (h : Walk (e.withDetail true) bytes start budget offset l) :
    Walk (e.withDetail false) bytes start budget offset l.withoutDetail := by
  induction h with
  | atEnd budget => exact .atEnd budget
  | atLimit inside => exact .atLimit inside
  | decoded unspent inside found _ ih =>
      exact .decoded unspent inside (decodeOne_withoutDetail_ok found) ih
  | stopped unspent inside failed policy =>
      exact .stopped unspent inside (decodeOne_withoutDetail_error failed) policy
  | stepped unspent here failed policy _ ih =>
      exact .stepped unspent here (decodeOne_withoutDetail_error failed) policy ih

theorem Walk.detailed (h : Walk e bytes start budget offset l)
    (hdetail : e.options.detail = true) {i : Instruction} (hi : .instruction i ∈ l.items) :
    i.detail ≠ .none := by
  induction h with
  | atEnd | atLimit | stopped => cases hi
  | decoded _ _ found _ ih =>
      rcases List.mem_cons.mp hi with heq | hi
      · cases heq
        exact detail_ne_none_of_decodeOne hdetail found
      · exact ih hi
  | stepped _ _ _ _ _ ih =>
      rcases List.mem_cons.mp hi with heq | hi
      · cases heq
      · exact ih hi

theorem listing_withDetail_false (e : Engine) (bytes : List UInt8) (start : UInt64) :
    (e.withDetail false).listing bytes start =
      ((e.withDetail true).listing bytes start).withoutDetail :=
  (Walk.withoutDetail ((e.withDetail true).listing_isWalk bytes start)).eq_listing.symm

/-- Detail lies over a listing and changes nothing under it. Without it the items are the same but
for the four fields of each instruction that are then empty; the failure, the place where the walk
ended, the bytes that were stepped over, the lines and all texts are the same. With it, every
instruction has some. -/
theorem listing_overlays_detail (e : Engine) (bytes : List UInt8) (start : UInt64) :
    let detailed := (e.withDetail true).listing bytes start
    let bare := (e.withDetail false).listing bytes start
    bare.items = detailed.items.map Item.withoutDetail ∧
      bare.error = detailed.error ∧ bare.consumed = detailed.consumed ∧
      bare.items.filter Item.isSkipped = detailed.items.filter Item.isSkipped ∧
      bare.lines = detailed.lines ∧ bare.text = detailed.text ∧
      bare.items.map (fun item => item.instruction?.map Instruction.text) =
        detailed.items.map (fun item => item.instruction?.map Instruction.text) ∧
      ∀ i, .instruction i ∈ detailed.items → i.detail ≠ .none := by
  intro detailed bare
  have hbare : bare = detailed.withoutDetail := e.listing_withDetail_false bytes start
  rw [hbare]
  refine ⟨rfl, rfl, rfl, detailed.skipped_withoutDetail, detailed.lines_withoutDetail,
    detailed.text_withoutDetail, ?_, fun i hi => ?_⟩
  · rw [Listing.withoutDetail, List.map_map]
    exact List.map_congr_left fun item _ => item.text_withoutDetail
  · exact Walk.detailed ((e.withDetail true).listing_isWalk bytes start) rfl hi

/-- A call, which writes the return address. -/
theorem listing_overlays_detail_jal :
    let detailed := (mipsOf32.withDetail true).listing [0, 0, 0, 0x0c] 0x1000
    let bare := (mipsOf32.withDetail false).listing [0, 0, 0, 0x0c] 0x1000
    ∃ i, detailed.items = [.instruction i] ∧ i.implicitWrites = [.mips .ra] ∧
      i.detail ≠ .none ∧ bare.items = [.instruction i.withoutDetail] ∧
      bare.text = detailed.text := by
  intro detailed bare
  obtain ⟨hitems, -, -, -, -, htext, -, hsome⟩ :=
    listing_overlays_detail mipsOf32 [0, 0, 0, 0x0c] 0x1000
  have hwrites : detailed.items.map (fun item => item.instruction?.map (·.implicitWrites)) =
      [some [.mips .ra]] := by
    decide +kernel
  obtain ⟨item, hitem, hwrites⟩ := List.map_eq_singleton_iff.mp hwrites
  cases item with
  | skipped offset address byte => cases hwrites
  | instruction i =>
      have hi : .instruction i ∈ detailed.items := by
        rw [hitem]
        exact List.mem_singleton_self _
      refine ⟨i, hitem, Option.some.inj hwrites, hsome i hi, ?_, htext⟩
      rw [show bare.items = detailed.items.map Item.withoutDetail from hitems, hitem]
      rfl

end Engine

end MachineCode
