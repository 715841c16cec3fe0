import MachineCode.Mips.Operand
import MachineCode.Mips.Table

/-!
# Words from operands

Decoding the operands of a word loses no bit of the fields they come from. The
proof is an assembler: `Row.assemble` starts from the fixed bits of a row and
writes one operand after the other into its fields, and what comes out agrees
with the decoded word wherever the row or one of its slots says anything. So
two words of a row have the same operands exactly if they agree on those fields.

Each slot can be undone by itself, with one exception. The size of an insertion
is stored as the position of its last bit, so undoing it needs the position of
the first one. In the table a size never stands before the slot of its position,
and the assembler finds the position in the bits it has written already.

A branch target is undone modulo 2³² at most: whatever the register width cuts
off lies above the 28 bits that the widest offset reaches.
-/

namespace MachineCode.Mips

variable {v : Variant} {address : UInt64} {w w' acc : Word} {slot : Slot}
  {slots : List Slot} {o : Operand} {ops : List Operand} {n k : Nat}

/-- The fields that a source is stored in, by first bit and width. -/
def Source.fields : Source → List (Nat × Nat)
  | .rs => [(21, 5)]
  | .rt | .ft | .hint => [(16, 5)]
  | .rd | .fs | .rawRd | .extractSize | .insertSize => [(11, 5)]
  | .fd | .shift | .bitPosition => [(6, 5)]
  | .shiftMinus1 => [(6, 2)]
  | .signedImm | .unsignedImm | .branch16 => [(0, 16)]
  | .mem _ => [(21, 5), (0, 16)]
  | .mem9 _ => [(21, 5), (7, 9)]
  | .branch21 => [(0, 21)]
  | .branch26 | .jump26 => [(0, 26)]
  | .pc19 => [(0, 19)]
  | .select => [(0, 3)]
  | .branchCondition => [(18, 3)]
  | .compareCondition => [(8, 3)]
  | .code => [(6, 10)]

/-- Whether bit `k` lies in one of some fields. -/
def InFields (fields : List (Nat × Nat)) (k : Nat) : Prop :=
  ∃ f ∈ fields, f.1 ≤ k ∧ k < f.1 + f.2

/-- Whether bit `k` lies in a field that some slot names. -/
def InSlots (slots : List Slot) (k : Nat) : Prop :=
  ∃ slot ∈ slots, InFields slot.source.fields k

/-- Two words agree on some bits. -/
def AgreeOn (bits : Nat → Prop) (w w' : Word) : Prop :=
  ∀ k, bits k → w.getLsbD k = w'.getLsbD k

theorem AgreeOn.field_eq {bits : Nat → Prop} (h : AgreeOn bits w w') {start width : Nat}
    (hbits : ∀ k, start ≤ k → k < start + width → bits k) :
    field start width w = field start width w' := by
  refine BitVec.eq_of_getLsbD_eq fun i hi => ?_
  simp only [field, BitVec.getLsbD_extractLsb', hi, decide_true, Bool.true_and]
  exact h _ (hbits _ (by omega) (by omega))

/-- The word with the field at `start` replaced. -/
def insertField (start : Nat) {width : Nat} (value : BitVec width) (w : Word) : Word :=
  w &&& ~~~((BitVec.allOnes width).setWidth 32 <<< start) ||| value.setWidth 32 <<< start

/-- The number of a register that has a field. -/
def registerNumber : MachineCode.Register → Nat
  | .mips (.general n) | .mips (.float n) => n.toNat
  | .mips (.condition n) => n.toNat
  | _ => 0

/-- The number of the register that an operand is, or is based on. -/
def numberOf (n : Nat) (o : Operand) : BitVec n :=
  match o.kind with
  | .register r => BitVec.ofNat n (registerNumber r)
  | .memory m => BitVec.ofNat n (registerNumber m.base)
  | _ => 0

/-- The immediate value or the displacement of an operand. -/
def valueOf (o : Operand) : UInt64 :=
  match o.kind with
  | .immediate v => v.toUInt64
  | .memory m => m.disp.toUInt64
  | _ => 0

/-- The low bits of a number. -/
def lowBits (n : Nat) (x : UInt64) : BitVec n :=
  x.toBitVec.setWidth n

/-- A number of bytes, counted in words. -/
def inWords (n : Nat) (x : UInt64) : BitVec n :=
  x.toBitVec.extractLsb' 2 n

/-- Writes an operand into the fields of its source. -/
def Source.put (address : UInt64) (o : Operand) (w : Word) : Source → Word
  | .rs => insertField 21 (numberOf 5 o) w
  | .rt | .ft => insertField 16 (numberOf 5 o) w
  | .rd | .fs => insertField 11 (numberOf 5 o) w
  | .fd => insertField 6 (numberOf 5 o) w
  | .branchCondition => insertField 18 (numberOf 3 o) w
  | .compareCondition => insertField 8 (numberOf 3 o) w
  | .shift | .bitPosition => insertField 6 (lowBits 5 (valueOf o)) w
  | .shiftMinus1 => insertField 6 (lowBits 2 (valueOf o - 1)) w
  | .rawRd => insertField 11 (lowBits 5 (valueOf o)) w
  | .extractSize => insertField 11 (lowBits 5 (valueOf o - 1)) w
  | .insertSize => insertField 11 (lowBits 5 (valueOf o - 1) + sa w) w
  | .hint => insertField 16 (lowBits 5 (valueOf o)) w
  | .select => insertField 0 (lowBits 3 (valueOf o)) w
  | .code => insertField 6 (lowBits 10 (valueOf o)) w
  | .signedImm | .unsignedImm => insertField 0 (lowBits 16 (valueOf o)) w
  | .mem _ => insertField 0 (lowBits 16 (valueOf o)) (insertField 21 (numberOf 5 o) w)
  | .mem9 _ => insertField 7 (lowBits 9 (valueOf o)) (insertField 21 (numberOf 5 o) w)
  | .branch16 => insertField 0 (inWords 16 (valueOf o - (address + 4))) w
  | .branch21 => insertField 0 (inWords 21 (valueOf o - (address + 4))) w
  | .branch26 => insertField 0 (inWords 26 (valueOf o - (address + 4))) w
  | .jump26 => insertField 0 (inWords 26 (valueOf o)) w
  | .pc19 => insertField 0 (inWords 19 (valueOf o - address)) w

/-- Writes operands into the fields of their slots, one after the other. -/
def putAll (address : UInt64) : List Slot → List Operand → Word → Word
  | slot :: slots, o :: ops, w => putAll address slots ops (slot.source.put address o w)
  | _, _, w => w

/-- The word of a row that has some operands at an address. -/
def Row.assemble (r : Row) (address : UInt64) (ops : List Operand) : Word :=
  putAll address r.slots ops r.value

theorem getLsbD_insertField (start : Nat) {width : Nat} (value : BitVec width) (w : Word)
    (hk : k < 32) :
    (insertField start value w).getLsbD k =
      if start ≤ k ∧ k < start + width then value.getLsbD (k - start) else w.getLsbD k := by
  simp only [insertField, BitVec.getLsbD_or, BitVec.getLsbD_and, BitVec.getLsbD_not,
    BitVec.getLsbD_shiftLeft, BitVec.getLsbD_setWidth, BitVec.getLsbD_allOnes]
  by_cases hlow : k < start
  · simp [hk, hlow, show ¬start ≤ k by omega]
  · have hin : k - start < 32 := by omega
    by_cases hhigh : k - start < width
    · simp [hk, hlow, hin, hhigh, show start ≤ k by omega, show k < start + width by omega]
    · have hout : value.getLsbD (k - start) = false := BitVec.getLsbD_of_ge _ _ (by omega)
      simp [hk, hlow, hin, hhigh, hout, show ¬k < start + width by omega]

/-- The fields of `w` written over those of another word. -/
def copyFields (fields : List (Nat × Nat)) (w acc : Word) : Word :=
  fields.foldl (fun acc f => insertField f.1 (field f.1 f.2 w) acc) acc

theorem AgreeOn.insertField {bits : Nat → Prop} (h : AgreeOn bits acc w) (start width : Nat) :
    AgreeOn (fun k => bits k ∨ start ≤ k ∧ k < start + width)
      (insertField start (field start width w) acc) w := by
  intro k hbits
  by_cases hk : k < 32
  · rw [getLsbD_insertField _ _ _ hk]
    split
    · next hin =>
        rw [field, BitVec.getLsbD_extractLsb', show start + (k - start) = k by omega,
          decide_eq_true (show k - start < width by omega), Bool.true_and]
    · next hout => exact h k (hbits.resolve_right hout)
  · rw [BitVec.getLsbD_of_ge _ _ (by omega), BitVec.getLsbD_of_ge _ _ (by omega)]

theorem AgreeOn.copyFields {bits : Nat → Prop} (h : AgreeOn bits acc w)
    (fields : List (Nat × Nat)) :
    AgreeOn (fun k => bits k ∨ InFields fields k) (copyFields fields w acc) w := by
  induction fields generalizing bits acc with
  | nil =>
      rintro k (hbits | ⟨f, hf, -⟩)
      · exact h k hbits
      · cases hf
  | cons f fields ih =>
      intro k hbits
      refine ih (h.insertField f.1 f.2) k ?_
      rcases hbits with hbits | ⟨g, hg, hin⟩
      · exact .inl (.inl hbits)
      · rcases List.mem_cons.mp hg with rfl | hg
        · exact .inl (.inr hin)
        · exact .inr ⟨g, hg, hin⟩

/-! ## Undoing one slot

Every source widens its field to 64 bits in some way, and each way has a law that brings
the field back. A target is also cut to the width of the registers, so its law goes
through the low 32 bits, which the cut leaves alone. -/

theorem lowBits_unsignedField (b : BitVec n) (hn : n ≤ 64) :
    lowBits n (unsignedField b).toUInt64 = b := by
  show (BitVec.ofNat 64 b.toNat).setWidth n = b
  rw [BitVec.ofNat_toNat, BitVec.setWidth_setWidth_of_le _ hn, BitVec.setWidth_eq]

theorem lowBits_signedField (b : BitVec n) (hn : n ≤ 64) :
    lowBits n (signedField b).toUInt64 = b := by
  show (BitVec.signExtend 64 b).setWidth n = b
  refine BitVec.eq_of_getLsbD_eq fun i hi => ?_
  rw [BitVec.getLsbD_setWidth, BitVec.getLsbD_signExtend]
  simp [hi, show i < 64 by omega]

theorem lowBits_add_one (b : BitVec n) (hn : n ≤ 64) :
    lowBits n ((unsignedField b + 1).toUInt64 - 1) = b := by
  have hcancel : (unsignedField b + 1).toUInt64 - 1 = (unsignedField b).toUInt64 := by
    rw [Int64.toUInt64_add]
    exact UInt64.add_sub_cancel _ _
  rw [hcancel, lowBits_unsignedField b hn]

theorem lowBits_size (last first : BitVec 5) :
    lowBits 5 ((unsignedField last - unsignedField first + 1).toUInt64 - 1) + first = last := by
  have hcancel : (unsignedField last - unsignedField first + 1).toUInt64 - 1 =
      (unsignedField last).toUInt64 - (unsignedField first).toUInt64 := by
    rw [Int64.toUInt64_add, Int64.toUInt64_sub]
    exact UInt64.add_sub_cancel _ _
  rw [hcancel]
  show (BitVec.ofNat 64 last.toNat - BitVec.ofNat 64 first.toNat).setWidth 5 + first = last
  bv_omega

/-- Cutting a sum to 32 bits keeps the low bits of a summand. -/
theorem wrap_add_sub (v : Variant) (base x : UInt64) :
    (v.wrap (base + x) - base).toUInt32 = x.toUInt32 := by
  rw [Variant.wrap]
  split
  · rw [UInt64.add_comm, UInt64.add_sub_cancel]
  · have hmask : (base + x &&& 0xffffffff).toUInt32 = (base + x).toUInt32 := by
      rw [UInt64.toUInt32_and]
      exact UInt32.and_neg_one
    rw [UInt64.toUInt32_sub, hmask, ← UInt64.toUInt32_sub, UInt64.add_comm,
      UInt64.add_sub_cancel]

theorem inWords_congr {x y : UInt64} (hn : n + 2 ≤ 32) (h : x.toUInt32 = y.toUInt32) :
    inWords n x = inWords n y := by
  refine BitVec.eq_of_getLsbD_eq fun i hi => ?_
  have hbit := congrArg (fun m => m.toBitVec.getLsbD (2 + i)) h
  simp only [UInt64.toBitVec_toUInt32, BitVec.getLsbD_setWidth, show 2 + i < 32 by omega,
    decide_true, Bool.true_and] at hbit
  simp only [inWords, BitVec.getLsbD_extractLsb', hi, decide_true, Bool.true_and]
  exact hbit

theorem inWords_four_mul (b : BitVec n) (hn : n + 2 ≤ 32) :
    inWords n (signedField b * 4).toUInt64 = b := by
  have hshift : (signedField b * 4).toUInt64.toBitVec = BitVec.signExtend 64 b <<< 2 := by
    show BitVec.signExtend 64 b * 4#64 = _
    rw [BitVec.shiftLeft_eq_mul_twoPow]
    rfl
  refine BitVec.eq_of_getLsbD_eq fun i hi => ?_
  rw [inWords, hshift, BitVec.getLsbD_extractLsb', BitVec.getLsbD_shiftLeft,
    BitVec.getLsbD_signExtend]
  simp [hi, show 2 + i < 64 by omega, show ¬2 + i < 2 by omega, show i < 64 by omega]

theorem inWords_wordsFrom (v : Variant) (base : UInt64) (b : BitVec n) (hn : n + 2 ≤ 32) :
    inWords n (valueOf (v.targetOperand (wordsFrom base b)) - base) = b := by
  show inWords n ((v.wrap (wordsFrom base b)).toInt64.toUInt64 - base) = b
  rw [UInt64.toUInt64_toInt64, wordsFrom, inWords_congr hn (wrap_add_sub v base _),
    inWords_four_mul b hn]

theorem inWords_inRegion (v : Variant) (base : UInt64) (b : BitVec 26) :
    inWords 26 (valueOf (v.targetOperand (inRegion base b))) = b := by
  show inWords 26 (v.wrap (inRegion base b)).toInt64.toUInt64 = b
  have hwrap := wrap_add_sub v 0 (inRegion base b)
  rw [UInt64.zero_add, UInt64.sub_zero] at hwrap
  rw [UInt64.toUInt64_toInt64, inWords_congr (by omega) hwrap]
  refine BitVec.eq_of_getLsbD_eq fun i hi => ?_
  have hmask : (0x0fffffff#64).getLsbD (2 + i) = true := by
    rw [show 0x0fffffff#64 = BitVec.ofNat 64 (2 ^ 28 - 1) from rfl, BitVec.getLsbD_ofNat,
      Nat.testBit_two_pow_sub_one]
    simp [show 2 + i < 64 by omega, show 2 + i < 28 by omega]
  have hindex : (BitVec.ofNat 64 (b.toNat * 4)).getLsbD (2 + i) = b.getLsbD i := by
    have hshift : b.toNat * 4 = b.toNat <<< 2 := (Nat.shiftLeft_eq b.toNat 2).symm
    rw [BitVec.getLsbD_ofNat, hshift, Nat.testBit_shiftLeft, Nat.add_sub_cancel_left]
    simp [show 2 + i < 64 by omega, BitVec.getLsbD]
  show ((base.toBitVec &&& ~~~0x0fffffff#64 ||| BitVec.ofNat 64 (b.toNat * 4)).extractLsb'
    2 26).getLsbD i = b.getLsbD i
  rw [BitVec.getLsbD_extractLsb', BitVec.getLsbD_or, BitVec.getLsbD_and, BitVec.getLsbD_not,
    hmask, hindex]
  simp [hi]

theorem numberOf_ofNat (b : BitVec n) : BitVec.ofNat n b.toNat = b := by
  rw [BitVec.ofNat_toNat, BitVec.setWidth_eq]

/-- A slot writes back the fields that its operand came from. A size needs its position to have
been written before. -/
theorem put_operand (h : v.operand? address w slot = some o)
    (hsize : slot.source = .insertSize → sa acc = sa w) :
    slot.source.put address o acc = copyFields slot.source.fields w acc := by
  obtain ⟨source, access⟩ := slot
  cases source with
  | insertSize =>
      rw [Variant.operand?] at h
      simp only at h
      split at h
      · cases h
      · cases h
        refine congrArg (insertField 11 · acc) ?_
        rw [hsize rfl]
        exact lowBits_size (rd w) (sa w)
  | rs | rt | rd | fs | ft | fd | branchCondition | compareCondition =>
      cases h
      exact congrArg (insertField _ · acc) (numberOf_ofNat _)
  | shift | bitPosition | unsignedImm | rawRd | select | hint | code =>
      cases h
      exact congrArg (insertField _ · acc) (lowBits_unsignedField _ (by omega))
  | shiftMinus1 | extractSize =>
      cases h
      exact congrArg (insertField _ · acc) (lowBits_add_one _ (by omega))
  | signedImm =>
      cases h
      exact congrArg (insertField _ · acc) (lowBits_signedField _ (by omega))
  | mem | mem9 =>
      cases h
      refine congr (congrArg (insertField _) (lowBits_signedField _ (by omega))) ?_
      exact congrArg (insertField 21 · acc) (numberOf_ofNat (rs w))
  | branch16 | branch21 | branch26 | pc19 =>
      cases h
      exact congrArg (insertField _ · acc) (inWords_wordsFrom v _ _ (by omega))
  | jump26 =>
      cases h
      exact congrArg (insertField _ · acc) (inWords_inRegion v _ _)

/-- Whether every size of an insertion stands behind a slot of its position. -/
def sizesPlaced : Bool → List Slot → Bool
  | _, [] => true
  | placed, slot :: slots =>
    (decide (slot.source ≠ .insertSize) || placed) &&
      sizesPlaced (placed || decide (slot.source = .bitPosition)) slots

theorem sizesPlaced_table : ∀ r ∈ table, sizesPlaced false r.slots = true := by
  decide +kernel

/-- Bits of the position of an insertion. -/
def InPosition (k : Nat) : Prop :=
  InFields (Source.fields .bitPosition) k

theorem AgreeOn.sa_eq {bits : Nat → Prop} (h : AgreeOn bits w w')
    (hbits : ∀ k, InPosition k → bits k) : sa w = sa w' :=
  h.field_eq fun k hlow hhigh => hbits k ⟨(6, 5), List.mem_singleton_self _, hlow, hhigh⟩

theorem mapM_cons_some {α β : Type} {f : α → Option β} {x : α} {xs : List α} {ys : List β}
    (h : (x :: xs).mapM f = some ys) :
    ∃ y zs, f x = some y ∧ xs.mapM f = some zs ∧ ys = y :: zs := by
  rw [List.mapM_cons] at h
  obtain ⟨y, hy, h⟩ := Option.bind_eq_some_iff.mp h
  obtain ⟨zs, hzs, h⟩ := Option.bind_eq_some_iff.mp h
  cases h
  exact ⟨y, zs, hy, hzs, rfl⟩

theorem exists_of_mem_mapM {α β : Type} {f : α → Option β} {xs : List α} {ys : List β} {y : β}
    (h : xs.mapM f = some ys) (hy : y ∈ ys) : ∃ x ∈ xs, f x = some y := by
  induction xs generalizing ys with
  | nil =>
      cases h
      exact absurd hy List.not_mem_nil
  | cons x xs ih =>
      obtain ⟨z, zs, hz, hzs, rfl⟩ := mapM_cons_some h
      rcases List.mem_cons.mp hy with rfl | hmem
      · exact ⟨x, List.mem_cons_self, hz⟩
      · obtain ⟨x', hx', hfound⟩ := ih hzs hmem
        exact ⟨x', List.mem_cons_of_mem x hx', hfound⟩

/-- Whatever the word agreed on before, after the slots were written it also agrees on their
fields. -/
theorem putAll_agreeOn {bits : Nat → Prop} {placed : Bool}
    (hplaced : sizesPlaced placed slots = true)
    (hbits : placed = true → ∀ k, InPosition k → bits k)
    (hacc : AgreeOn bits acc w) (h : slots.mapM (v.operand? address w) = some ops) :
    AgreeOn (fun k => bits k ∨ InSlots slots k) (putAll address slots ops acc) w := by
  induction slots generalizing bits placed acc ops with
  | nil =>
      cases h
      rintro k (hk | ⟨slot, hslot, -⟩)
      · exact hacc k hk
      · cases hslot
  | cons slot slots ih =>
      obtain ⟨o, ops, ho, hops, rfl⟩ := mapM_cons_some h
      rw [sizesPlaced, Bool.and_eq_true, Bool.or_eq_true, decide_eq_true_eq] at hplaced
      obtain ⟨hslot, hslots⟩ := hplaced
      have hput : slot.source.put address o acc = copyFields slot.source.fields w acc := by
        refine put_operand ho fun hsource => hacc.sa_eq ?_
        exact hbits (hslot.resolve_left (absurd hsource))
      have hagree := hacc.copyFields slot.source.fields
      rw [← hput] at hagree
      intro k hk
      refine ih hslots ?_ hagree hops k ?_
      · intro hplaced k hk
        rcases Bool.or_eq_true _ _ |>.mp hplaced with hold | hnew
        · exact .inl (hbits hold k hk)
        · rw [decide_eq_true_eq] at hnew
          rw [hnew]
          exact .inr hk
      · rcases hk with hk | ⟨x, hx, hin⟩
        · exact .inl (.inl hk)
        · rcases List.mem_cons.mp hx with rfl | hx
          · exact .inl (.inr hin)
          · exact .inr ⟨x, hx, hin⟩

/-- Words that agree on the fields of a slot have the same operand there. -/
theorem operand?_congr (h : ∀ f ∈ slot.source.fields, field f.1 f.2 w = field f.1 f.2 w')
    (hsize : slot.source = .insertSize → sa w = sa w') :
    v.operand? address w slot = v.operand? address w' slot := by
  obtain ⟨source, access⟩ := slot
  cases source with
  | insertSize =>
      have hrd : rd w = rd w' := h (11, 5) (List.mem_singleton_self _)
      simp only [Variant.operand?, hrd, hsize rfl]
  | mem | mem9 =>
      have hrs : rs w = rs w' := h _ List.mem_cons_self
      have hdisp := h _ (List.mem_cons_of_mem _ List.mem_cons_self)
      simp only [Variant.operand?, Variant.memoryOperand, hrs, hdisp]
  | _ =>
      have hfield := h _ List.mem_cons_self
      simp only [Variant.operand?, rs, rt, rd, sa, hfield]

/-- Words that agree on the fields of some slots have the same operands. -/
theorem mapM_operand?_congr {bits : Nat → Prop} {placed : Bool}
    (hplaced : sizesPlaced placed slots = true)
    (hbits : placed = true → ∀ k, InPosition k → bits k)
    (hslots : ∀ k, InSlots slots k → bits k) (h : AgreeOn bits w w') :
    slots.mapM (v.operand? address w) = slots.mapM (v.operand? address w') := by
  induction slots generalizing placed with
  | nil => rfl
  | cons slot slots ih =>
      rw [sizesPlaced, Bool.and_eq_true, Bool.or_eq_true, decide_eq_true_eq] at hplaced
      obtain ⟨hslot, hrest⟩ := hplaced
      have hin : ∀ k, InFields slot.source.fields k → bits k :=
        fun k hk => hslots k ⟨slot, List.mem_cons_self, hk⟩
      have hhead : v.operand? address w slot = v.operand? address w' slot := by
        refine operand?_congr (fun f hf => ?_) (fun hsource => ?_)
        · exact h.field_eq fun k hlow hhigh => hin k ⟨f, hf, hlow, hhigh⟩
        · exact h.sa_eq (hbits (hslot.resolve_left (absurd hsource)))
      have htail := by
        refine ih hrest ?_ fun k ⟨x, hx, hk⟩ => hslots k ⟨x, List.mem_cons_of_mem _ hx, hk⟩
        intro hplaced k hk
        rcases Bool.or_eq_true _ _ |>.mp hplaced with hold | hnew
        · exact hbits hold k hk
        · rw [decide_eq_true_eq] at hnew
          refine hin k ?_
          rw [hnew]
          exact hk
      rw [List.mapM_cons, List.mapM_cons, hhead, htail]

theorem assemble_agreeOn {r : Row} (hr : r ∈ table) (happlies : r.appliesTo w = true)
    (h : v.operands? address w r = some ops) :
    AgreeOn (fun k => r.mask.getLsbD k = true ∨ InSlots r.slots k)
      (r.assemble address ops) w := by
  refine putAll_agreeOn (sizesPlaced_table r hr) (fun hplaced => by cases hplaced) ?_ h
  intro k hk
  rw [Row.appliesTo, Bool.and_eq_true, beq_iff_eq] at happlies
  rw [← happlies.1, BitVec.getLsbD_and, hk, Bool.and_true]

/-- Two words that decode along one row of the table have the same operands exactly if they agree
on the fields that the slots of the row name. The assembler gets these fields, and the fixed bits of
the row, back from the operands. -/
theorem operands?_eq_iff_agreeOn {r : Row} {ops' : List Operand} (hr : r ∈ table)
    (happlies : r.appliesTo w = true) (h : v.operands? address w r = some ops)
    (happlies' : r.appliesTo w' = true) (h' : v.operands? address w' r = some ops') :
    (ops = ops' ↔ AgreeOn (InSlots r.slots) w w') ∧
      AgreeOn (fun k => r.mask.getLsbD k = true ∨ InSlots r.slots k)
        (r.assemble address ops) w := by
  have hw := assemble_agreeOn hr happlies h
  have hw' := assemble_agreeOn hr happlies' h'
  refine ⟨⟨?_, fun hagree => ?_⟩, hw⟩
  · rintro rfl k hk
    exact (hw k (.inr hk)).symm.trans (hw' k (.inr hk))
  · have heq : r.slots.mapM (v.operand? address w) = r.slots.mapM (v.operand? address w') :=
      mapM_operand?_congr (sizesPlaced_table r hr) (fun hplaced => by cases hplaced)
        (fun _ => id) hagree
    rw [← Variant.operands?, ← Variant.operands?, h, h'] at heq
    exact Option.some.inj heq

-- a backward branch whose target is cut to 32 bits: `bne v0, zero` from 0 to the word before
example :
    let v : Variant := { wide := false, release6 := true, bigEndian := true }
    let r : Row := .primary 0x05 .bne [.use .rs, .use .rt, .use .branch16]
    (v.operands? 0 0x1440fffe r).map (r.assemble 0) = some 0x1440fffe := by
  decide +kernel

/-- Two insertions of different sizes at one position: `ins v0, a0, 3, 5` and `ins v0, a0, 3, 6`. -/
theorem operands?_eq_iff_agreeOn_ins :
    let v : Variant := { wide := false, release6 := false, bigEndian := false }
    ∃ r ∈ table, ∃ ops ops',
      r.appliesTo 0x7c8238c4 = true ∧ v.operands? 0 0x7c8238c4 r = some ops ∧
      r.appliesTo 0x7c8240c4 = true ∧ v.operands? 0 0x7c8240c4 r = some ops' ∧
      (ops = ops' ↔ AgreeOn (InSlots r.slots) 0x7c8238c4 0x7c8240c4) ∧
      AgreeOn (fun k => r.mask.getLsbD k = true ∨ InSlots r.slots k)
        (r.assemble 0 ops) 0x7c8238c4 := by
  intro v
  let r : Row := Row.special3 0x04 .ins
    [.update .rt, .use .rs, .note .bitPosition, .note .insertSize] |>.rel2
  have hr : r ∈ table := by decide +kernel
  have happlies : r.appliesTo 0x7c8238c4 = true := by decide
  have happlies' : r.appliesTo 0x7c8240c4 = true := by decide
  obtain ⟨ops, h⟩ := Option.isSome_iff_exists.mp
    (show (v.operands? 0 0x7c8238c4 r).isSome = true by decide)
  obtain ⟨ops', h'⟩ := Option.isSome_iff_exists.mp
    (show (v.operands? 0 0x7c8240c4 r).isSome = true by decide)
  exact ⟨r, hr, ops, ops', happlies, h, happlies', h',
    operands?_eq_iff_agreeOn hr happlies h happlies' h'⟩

end MachineCode.Mips
