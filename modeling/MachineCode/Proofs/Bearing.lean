import MachineCode.Instruction
import Mathlib.Algebra.Group.Int.Defs
import Mathlib.Data.Nat.ModEq

/-!
# How values bear on the address

An operand of an instruction bears on the address in one of three ways: not at
all, as a place at some distance, or as a place in the region of the next word.
Moving an instruction moves the values accordingly. A target that was cut to the
width of the program counter can still be moved, because cutting commutes with
adding.
-/

namespace MachineCode

/-- How the value of an operand depends on the address of its instruction. -/
inductive Bearing where
  | fixed
  /-- A place at some distance, in an address space of so many bits. -/
  | relative (bits : Nat)
  /-- A place in the 256 MB region of the next word, in an address space of so many bits. -/
  | region (bits : Nat)
deriving DecidableEq

/-- The low bits of an address as a value. -/
def lowAddress (bits : Nat) (x : UInt64) : Int64 :=
  (UInt64.ofNat (x.toNat % 2 ^ bits)).toInt64

/-- The value at `dest` of what has a value at `start`. -/
def Bearing.move (start dest : UInt64) (value : Int64) : Bearing → Int64
  | fixed => value
  | relative bits => lowAddress bits (value.toUInt64 + (dest - start))
  | region bits =>
    lowAddress bits ((dest + 4) &&& ~~~0x0fffffff ||| value.toUInt64 &&& 0x0fffffff)

/-- The operand at `dest` that an operand at `start` becomes. -/
def Operand.relocate (start dest : UInt64) (b : Bearing) (o : Operand) : Operand :=
  match o.kind with
  | .immediate value => { o with kind := .immediate (b.move start dest value) }
  | _ => o

variable {start dest : UInt64}

theorem toNat_lowAddress (bits : Nat) (x : UInt64) :
    (lowAddress bits x).toUInt64.toNat = x.toNat % 2 ^ bits := by
  have hlow := Nat.lt_of_le_of_lt (Nat.mod_le x.toNat (2 ^ bits)) x.toNat_lt
  rw [lowAddress, UInt64.toUInt64_toInt64, UInt64.toNat_ofNat', Nat.mod_eq_of_lt hlow]

theorem lowAddress_add {bits : Nat} (hbits : bits ≤ 64) (x d : UInt64) :
    lowAddress bits ((lowAddress bits x).toUInt64 + d) = lowAddress bits (x + d) := by
  have hdvd : 2 ^ bits ∣ 2 ^ 64 := Nat.pow_dvd_pow 2 hbits
  refine congrArg (fun n => (UInt64.ofNat n).toInt64) ?_
  rw [UInt64.toNat_add, UInt64.toNat_add, toNat_lowAddress, Nat.mod_mod_of_dvd _ hdvd,
    Nat.mod_mod_of_dvd _ hdvd, Nat.mod_add_mod]

theorem toNat_ofInt (d : Int) : ((Int64.ofInt d).toUInt64.toNat : Int) = d % 2 ^ 64 := by
  show ((BitVec.ofInt 64 d).toNat : Int) = d % 2 ^ 64
  rw [BitVec.toNat_ofInt]
  exact Int.toNat_of_nonneg (Int.emod_nonneg d (by decide))

theorem toNat_lowAddress_add {bits : Nat} (hbits : bits ≤ 64) (x : UInt64) (d : Int) :
    ((lowAddress bits (x + (Int64.ofInt d).toUInt64)).toUInt64.toNat : Int) =
      (x.toNat + d) % 2 ^ bits := by
  have hdvd : 2 ^ bits ∣ 2 ^ 64 := Nat.pow_dvd_pow 2 hbits
  have hdvd' : (2 : Int) ^ bits ∣ 2 ^ 64 := by exact_mod_cast hdvd
  rw [toNat_lowAddress, UInt64.toNat_add, Nat.mod_mod_of_dvd _ hdvd]
  push_cast
  rw [toNat_ofInt, Int.add_emod, Int.emod_emod_of_dvd _ hdvd', ← Int.add_emod]

theorem lowAddress_and_16 (x : UInt64) : (x &&& 0xffff).toInt64 = lowAddress 16 x := by
  have hmask : (x &&& 0xffff).toNat = x.toNat % 2 ^ 16 := by
    rw [UInt64.toNat_and]
    exact Nat.and_two_pow_sub_one_eq_mod _ 16
  rw [lowAddress, ← hmask, UInt64.ofNat_toNat]

theorem lowAddress_and_32 (x : UInt64) : (x &&& 0xffffffff).toInt64 = lowAddress 32 x := by
  have hmask : (x &&& 0xffffffff).toNat = x.toNat % 2 ^ 32 := by
    rw [UInt64.toNat_and]
    exact Nat.and_two_pow_sub_one_eq_mod _ 32
  rw [lowAddress, ← hmask, UInt64.ofNat_toNat]

theorem lowAddress_64 (x : UInt64) : x.toInt64 = lowAddress 64 x := by
  rw [lowAddress, Nat.mod_eq_of_lt x.toNat_lt, UInt64.ofNat_toNat]

/-- The values of a relative operand differ as the addresses do. -/
theorem Bearing.move_relative_sub (bits : Nat) (value : Int64) :
    (value.toUInt64 - ((relative bits).move start dest value).toUInt64).toNat % 2 ^ bits =
      (start - dest).toNat % 2 ^ bits := by
  rw [move]
  by_cases hbits : bits ≤ 64
  · have hdvd : 2 ^ bits ∣ 2 ^ 64 := Nat.pow_dvd_pow 2 hbits
    have hwrap : ∀ n, 2 ^ 64 + n ≡ n [MOD 2 ^ bits] := fun n =>
      (Nat.modEq_zero_iff_dvd.mpr hdvd).add_right n |>.trans (by rw [Nat.zero_add])
    have hstart := start.toNat_lt
    have hdest := dest.toNat_lt
    have hmoved : (value.toUInt64 + (dest - start)).toNat % 2 ^ bits ≡
        value.toUInt64.toNat + (2 ^ 64 - start.toNat + dest.toNat) [MOD 2 ^ bits] := by
      rw [UInt64.toNat_add, UInt64.toNat_sub, Nat.mod_mod_of_dvd _ hdvd, Nat.ModEq,
        Nat.mod_mod, Nat.add_mod, Nat.mod_mod_of_dvd _ hdvd, ← Nat.add_mod]
    have hlow := (Nat.mod_le (value.toUInt64 + (dest - start)).toNat (2 ^ bits)).trans_lt
      (UInt64.toNat_lt _)
    rw [UInt64.toNat_sub, UInt64.toNat_sub, toNat_lowAddress, Nat.mod_mod_of_dvd _ hdvd,
      Nat.mod_mod_of_dvd _ hdvd]
    generalize (value.toUInt64 + (dest - start)).toNat % 2 ^ bits = moved at hmoved hlow ⊢
    -- the moved value is added back on both sides
    refine Nat.ModEq.add_right_cancel' moved ?_
    calc 2 ^ 64 - moved + value.toUInt64.toNat + moved
        = 2 ^ 64 + value.toUInt64.toNat := by omega
      _ ≡ 2 ^ 64 + (2 ^ 64 + value.toUInt64.toNat) [MOD 2 ^ bits] := (hwrap _).symm
      _ = 2 ^ 64 - dest.toNat + start.toNat +
          (value.toUInt64.toNat + (2 ^ 64 - start.toNat + dest.toNat)) := by omega
      _ ≡ 2 ^ 64 - dest.toNat + start.toNat + moved [MOD 2 ^ bits] := hmoved.symm.add_left _
  · have hwide : ∀ x : UInt64, x.toNat % 2 ^ bits = x.toNat := fun x =>
      Nat.mod_eq_of_lt (x.toNat_lt.trans_le (Nat.pow_le_pow_right (by decide) (by omega)))
    simp only [lowAddress, hwide, UInt64.ofNat_toNat, UInt64.toUInt64_toInt64]
    congr 1
    grind

@[simp] theorem Operand.relocate_fixed (o : Operand) : o.relocate start dest .fixed = o := by
  obtain ⟨kind, size, access, broadcast, zeroing, mask⟩ := o
  cases kind <;> rfl

@[simp] theorem Operand.memory?_relocate (b : Bearing) (o : Operand) :
    (o.relocate start dest b).memory? = o.memory? := by
  obtain ⟨kind, size, access, broadcast, zeroing, mask⟩ := o
  cases kind <;> rfl

theorem map_relocate_fixed (operands : List Operand) :
    operands.map (Operand.relocate start dest .fixed) = operands :=
  List.map_id'' Operand.relocate_fixed operands

theorem zipWith_relocate_replicate (b : Bearing) (operands : List Operand) :
    List.zipWith (Operand.relocate start dest) (List.replicate operands.length b) operands =
      operands.map (Operand.relocate start dest b) := by
  induction operands with
  | nil => rfl
  | cons o os ih => exact congrArg (o.relocate start dest b :: ·) ih

theorem zipWith_relocate_fixed {bearings : List Bearing} {operands : List Operand}
    (hfixed : ∀ b ∈ bearings, b = .fixed) (hlen : bearings.length = operands.length) :
    List.zipWith (Operand.relocate start dest) bearings operands = operands := by
  rw [List.eq_replicate_of_mem hfixed, hlen, zipWith_relocate_replicate, map_relocate_fixed]

/-- Two records of one instruction at two addresses. They agree in everything but the address, the
values that bear on it, and the text. -/
structure Instruction.Relocates (i i' : Instruction) (bearings : List Bearing)
    (start dest : UInt64) : Prop where
  address_eq : i.address = start
  bearings_length : bearings.length = i.operands.length
  eq : i' = { i with
    address := dest
    operands := List.zipWith (Operand.relocate start dest) bearings i.operands
    operandText := i'.operandText }
  /-- Only immediates bear on the address. -/
  immediate : ∀ p ∈ bearings.zip i.operands, p.1 ≠ .fixed → ∃ value, p.2.kind = .immediate value
  text_eq : (∀ b ∈ bearings, b = .fixed) → i'.operandText = i.operandText

theorem Instruction.Relocates.move_eq {i i' : Instruction} {bearings : List Bearing}
    (h : i.Relocates i' bearings start dest) {k : Nat} {b : Bearing} {value value' : Int64}
    (hb : bearings[k]? = some b) (hvalue : i.operands[k]?.bind Operand.immediate? = some value)
    (hvalue' : i'.operands[k]?.bind Operand.immediate? = some value') :
    b.move start dest value = value' := by
  obtain ⟨o, ho, hkind⟩ := Option.bind_eq_some_iff.mp hvalue
  have hmoved : i'.operands[k]? = some (o.relocate start dest b) := by
    rw [h.eq, List.getElem?_zipWith, hb, ho]
  rw [hmoved] at hvalue'
  obtain ⟨kind, size, access, broadcast, zeroing, mask⟩ := o
  cases kind with
  | immediate v =>
      cases hkind
      exact Option.some.inj hvalue'
  | _ => cases hkind

end MachineCode
