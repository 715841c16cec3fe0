import MachineCode.Bytes.Reader
import Mathlib.Algebra.Group.Nat.Defs

/-!
# Looking ahead in 64-bit words

A look-ahead adds the distance to the position, and one to the distance for the
report of a shortage. Both sums are checked, so the program stops where one of them
does not fit a word.

Whether both fit is one inequality, since a place in the buffer leaves room for one
more. As long as it holds, the answer is that of numbers without a bound. Past it
there is no answer at all, although the distance is then far beyond the bytes that
are left, which a comparison made before the sums would have told. Nor would words
that wrap do better: they lead back to a place before the position, or to a report
that no byte was asked for.
-/

namespace MachineCode.Bytes.Reader

variable {r : Reader} {ahead : UInt64}

/-- What the byte `ahead` places past the position is, with numbers that have no bound. -/
inductive LooksAhead (r : Reader) (ahead : Nat) : Except DecodeError UInt8 → Prop where
  | byte {b : UInt8} (within : ahead < r.remaining)
      (byte_eq : r.data[r.position + ahead]? = some b) : LooksAhead r ahead (.ok b)
  | short (beyond : r.remaining ≤ ahead) :
      LooksAhead r ahead (.error ⟨r.position, .underrun (ahead + 1) r.remaining⟩)

/-- Whether position plus distance and distance plus one both fit a word. -/
def AheadFits (r : Reader) (ahead : UInt64) : Prop :=
  max r.position 1 + ahead.toNat < 2 ^ 64

instance (r : Reader) (ahead : UInt64) : Decidable (r.AheadFits ahead) :=
  inferInstanceAs (Decidable (_ < _))

theorem LooksAhead.of_getElem? (r : Reader) (ahead : Nat) :
    r.LooksAhead ahead (match r.data[r.position + ahead]? with
      | some b => .ok b
      | none => .error (r.underrun (ahead + 1))) := by
  have hle := r.position_le
  cases hbyte : r.data[r.position + ahead]? with
  | some b =>
      obtain ⟨hlt, -⟩ := List.getElem?_eq_some_iff.mp hbyte
      refine .byte ?_ hbyte
      rw [remaining]
      omega
  | none =>
      have hbeyond := List.getElem?_eq_none_iff.mp hbyte
      refine .short ?_
      rw [remaining]
      omega

theorem AheadFits.position_lt (h : r.AheadFits ahead) :
    r.position + ahead.toNat < 2 ^ 64 := by
  unfold AheadFits at h
  omega

theorem AheadFits.succ_lt (h : r.AheadFits ahead) : ahead.toNat + (1 : UInt64).toNat < 2 ^ 64 := by
  unfold AheadFits at h
  have hone : (1 : UInt64).toNat = 1 := rfl
  omega

theorem AheadFits.toNat_place (h : r.AheadFits ahead) :
    (UInt64.ofNat r.position).toNat + ahead.toNat < 2 ^ 64 ∧
      (UInt64.ofNat r.position + ahead).toNat = r.position + ahead.toNat := by
  have hlt := h.position_lt
  have hposition : (UInt64.ofNat r.position).toNat = r.position :=
    UInt64.toNat_ofNat_of_lt' (Nat.lt_of_le_of_lt (Nat.le_add_right ..) hlt)
  have hfits : (UInt64.ofNat r.position).toNat + ahead.toNat < 2 ^ 64 := by rwa [hposition]
  exact ⟨hfits, by rw [toNat_add_of_lt hfits, hposition]⟩

/-- With sums that fit, a look-ahead sees what it should. -/
theorem looksAhead_peekAt (h : r.AheadFits ahead) :
    ∃ answer, r.peekAt ahead = some answer ∧ r.LooksAhead ahead.toNat answer := by
  obtain ⟨hfits, hplace⟩ := h.toNat_place
  refine ⟨_, ?_, .of_getElem? r ahead.toNat⟩
  rw [peekAt, add?_of_lt hfits, Option.bind_eq_bind, Option.bind_some, hplace]
  cases r.data[r.position + ahead.toNat]? with
  | some b => rfl
  | none =>
      rw [add?_of_lt h.succ_lt, Option.bind_some, toNat_add_of_lt h.succ_lt]
      rfl

/-- With sums that do not fit, the program stops. -/
theorem peekAt_eq_none (hlen : r.data.length < 2 ^ 64) (h : ¬ r.AheadFits ahead) :
    r.peekAt ahead = none := by
  have hle := r.position_le
  have hposition := UInt64.toNat_ofNat_of_lt' (Nat.lt_of_le_of_lt hle hlen)
  have hone : (1 : UInt64).toNat = 1 := rfl
  unfold AheadFits at h
  rw [peekAt]
  by_cases hplace : r.position + ahead.toNat < 2 ^ 64
  · -- the place fits, so it is the number of bytes asked for that does not
    have hfits : (UInt64.ofNat r.position).toNat + ahead.toNat < 2 ^ 64 := by rwa [hposition]
    have hbeyond : r.data[(UInt64.ofNat r.position + ahead).toNat]? = none := by
      rw [List.getElem?_eq_none_iff, toNat_add_of_lt hfits]
      omega
    rw [add?_of_lt hfits, Option.bind_eq_bind, Option.bind_some, hbeyond]
    rw [add?_of_le (by omega : 2 ^ 64 ≤ ahead.toNat + (1 : UInt64).toNat)]
    rfl
  · rw [add?_of_le (by omega : 2 ^ 64 ≤ (UInt64.ofNat r.position).toNat + ahead.toNat)]
    rfl

/-- Where the sums of a look-ahead lead in words that wrap: to a place before the position, or to
no byte asked for. -/
inductive LeadsAstray (r : Reader) (ahead : UInt64) : Prop where
  | behind (place_lt : (UInt64.ofNat r.position + ahead).toNat < r.position)
  | nothing (position_eq : r.position = 0) (needed_eq : ahead + 1 = 0)

/-- Sums that do not fit belong to distances beyond the bytes left. -/
theorem remaining_le_of_not_fits (hlen : r.data.length < 2 ^ 64) (h : ¬ r.AheadFits ahead) :
    r.remaining ≤ ahead.toNat := by
  unfold AheadFits at h
  rw [remaining]
  omega

theorem leadsAstray_of_not_fits (hlen : r.data.length < 2 ^ 64) (h : ¬ r.AheadFits ahead) :
    r.LeadsAstray ahead := by
  have hle := r.position_le
  have hlt := ahead.toNat_lt
  unfold AheadFits at h
  by_cases hzero : r.position = 0
  · refine .nothing hzero (UInt64.toNat_inj.mp ?_)
    have hlast : ahead.toNat = 2 ^ 64 - 1 := by omega
    rw [UInt64.toNat_add, hlast]
    rfl
  · refine .behind ?_
    rw [UInt64.toNat_add, UInt64.toNat_ofNat_of_lt' (Nat.lt_of_le_of_lt hle hlen)]
    omega

/-- A look-ahead answers, and then as it should, exactly as long as position plus distance and
distance plus one fit a word. Otherwise the distance lies beyond the bytes left, but the program
stops, and words that wrap would lead astray. -/
theorem looksAhead_peekAt_iff (r : Reader) (hlen : r.data.length < 2 ^ 64) (ahead : UInt64) :
    ((∃ answer, r.peekAt ahead = some answer ∧ r.LooksAhead ahead.toNat answer) ↔
        r.AheadFits ahead) ∧
      (¬ r.AheadFits ahead →
        r.remaining ≤ ahead.toNat ∧ r.peekAt ahead = none ∧ r.LeadsAstray ahead) := by
  refine ⟨⟨?_, looksAhead_peekAt⟩, fun h => ?_⟩
  · rintro ⟨answer, hanswer, -⟩
    refine Decidable.byContradiction fun hfits => ?_
    rw [peekAt_eq_none hlen hfits] at hanswer
    cases hanswer
  · exact ⟨remaining_le_of_not_fits hlen h, peekAt_eq_none hlen h,
      leadsAstray_of_not_fits hlen h⟩

/-- From position 2, the place two bytes less than 2 ^ 64 ahead is no word, and wraps to the
first byte. -/
theorem looksAhead_peekAt_iff_behind :
    (ofPosition [0xaa, 0xbb] 2).data.length < 2 ^ 64 ∧
      ¬ (ofPosition [0xaa, 0xbb] 2).AheadFits 0xfffffffffffffffe ∧
      (ofPosition [0xaa, 0xbb] 2).peekAt 0xfffffffffffffffe = none ∧
      (ofPosition [0xaa, 0xbb] 2).LeadsAstray 0xfffffffffffffffe := by
  have hlen : (ofPosition [0xaa, 0xbb] 2).data.length < 2 ^ 64 := by decide
  have hfits : ¬ (ofPosition [0xaa, 0xbb] 2).AheadFits 0xfffffffffffffffe := by decide
  obtain ⟨-, hstops⟩ := looksAhead_peekAt_iff (ofPosition [0xaa, 0xbb] 2) hlen 0xfffffffffffffffe
  exact ⟨hlen, hfits, (hstops hfits).2⟩

/-- No byte is left at position 2, and yet the look-ahead does not report a shortage. -/
theorem not_looksAhead_behind :
    (ofPosition [0xaa, 0xbb] 2).remaining = 0 ∧
      (ofPosition [0xaa, 0xbb] 2).peekAt 0xfffffffffffffffe = none ∧
      ¬ ∃ answer, (ofPosition [0xaa, 0xbb] 2).peekAt 0xfffffffffffffffe = some answer ∧
        (ofPosition [0xaa, 0xbb] 2).LooksAhead (0xfffffffffffffffe : UInt64).toNat answer := by
  have hnone : (ofPosition [0xaa, 0xbb] 2).peekAt 0xfffffffffffffffe = none := by decide
  refine ⟨rfl, hnone, ?_⟩
  rintro ⟨answer, hanswer, -⟩
  rw [hnone] at hanswer
  cases hanswer

end MachineCode.Bytes.Reader
