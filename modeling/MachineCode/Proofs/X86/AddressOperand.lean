import MachineCode.Proofs.X86.Layout
import MachineCode.Proofs.X86.Slots

/-!
# The operand that takes the address

A frame with an address has one slot that takes it, and that slot gives one
operand. The operands are therefore the one of the address with others before and
behind it that know nothing of the address, so that only the one may be
broadcast. What is put on the destination afterwards changes nothing of this.
-/

namespace MachineCode

/-- What an operand is apart from its write mask. -/
def Operand.bare (o : Operand) : Operand :=
  { o with mask := .absent, zeroing := false }

theorem Operand.bare_kind (o : Operand) : o.bare.kind = o.kind := rfl

theorem Operand.bare_size (o : Operand) : o.bare.size = o.size := rfl

theorem Operand.bare_broadcast (o : Operand) : o.bare.broadcast = o.broadcast := rfl

namespace X86

open Bytes Read

variable {f : Frame} {a : Option Address} {slot : Slot} {o : Operand} {body : Body}
  {address : UInt64} {length : Nat} {disp : List UInt8} {parts : List Part} {t t' : Tape}

theorem decorate_bare (f : Frame) (operands : List Operand) :
    (decorate f operands).map Operand.bare = operands.map Operand.bare := by
  rw [decorate.eq_def]
  split
  · cases operands <;> rfl
  · rfl

/-- The decorations leave every operand in its place. -/
theorem decorate_split (f : Frame) (before : List Operand) (o : Operand) (after : List Operand) :
    ∃ before' o' after', decorate f (before ++ o :: after) = before' ++ o' :: after' ∧
      before'.map Operand.bare = before.map Operand.bare ∧ o'.bare = o.bare ∧
      after'.map Operand.bare = after.map Operand.bare := by
  have hbare := decorate_bare f (before ++ o :: after)
  rw [List.map_append, List.map_cons] at hbare
  obtain ⟨before', rest, hdecorated, hbefore, hrest⟩ := List.map_eq_append_iff.mp hbare
  obtain ⟨o', after', rfl, ho, hafter⟩ := List.map_eq_cons_iff.mp hrest
  exact ⟨before', o', after', hdecorated, hbefore, ho, hafter⟩

theorem exists_bare_of_mem_decorate {operands : List Operand} (ho : o ∈ decorate f operands) :
    ∃ o' ∈ operands, o'.bare = o.bare := by
  have hmem : o.bare ∈ (decorate f operands).map Operand.bare := List.mem_map_of_mem ho
  rwa [decorate_bare, List.mem_map] at hmem

/-- Operands that are the same apart from masks have the same things said of them that masks have no
part in. -/
theorem forall_eq_false_of_map_bare {operands operands' : List Operand} {q : Operand → Bool}
    (hq : ∀ x, q x.bare = q x) (hbare : operands'.map Operand.bare = operands.map Operand.bare)
    (hnot : ∀ x ∈ operands, q x = false) : ∀ x ∈ operands', q x = false := by
  intro x hx
  have hmem : x.bare ∈ operands.map Operand.bare := hbare ▸ List.mem_map_of_mem hx
  obtain ⟨y, hy, heq⟩ := List.mem_map.mp hmem
  rw [← hq, ← heq, hq]
  exact hnot y hy

/-- Of the decorated operands, at most the one is such that the others are not. -/
theorem filter_decorate {before after : List Operand} {q : Operand → Bool}
    (hq : ∀ x, q x.bare = q x) (hbefore : ∀ x ∈ before, q x = false)
    (hafter : ∀ x ∈ after, q x = false) :
    ∃ o', o'.bare = o.bare ∧ (decorate f (before ++ o :: after)).filter q = [o'].filter q := by
  obtain ⟨before', o', after', hdecorated, hb, ho, ha⟩ := decorate_split f before o after
  have hnone (operands : List Operand) (hnot : ∀ x ∈ operands, q x = false) :
      operands.filter q = [] :=
    List.filter_eq_nil_iff.mpr fun x hx => Bool.eq_false_iff.mp (hnot x hx)
  refine ⟨o', ho, ?_⟩
  rw [hdecorated, List.filter_append, ← List.singleton_append, List.filter_append,
    hnone _ (forall_eq_false_of_map_bare hq hb hbefore),
    hnone _ (forall_eq_false_of_map_bare hq ha hafter), List.nil_append, List.append_nil]

theorem Slot.Gives.broadcast_eq (ho : slot.Gives f a o)
    (hslot : slot.source.takesAddress = false) : o.broadcast = none := by
  cases ho with
  | element _ _ _ _ _ _ _ _ _ htakes =>
      rw [hslot] at htakes
      cases htakes
  | _ => rfl

/-- How the operands lie around the one of the address, which a slot gave. -/
structure Frame.PlacesAddress (f : Frame) (a : Option Address) (disp : List UInt8)
    (operands : List Operand) (slot : Slot) (before : List Operand) (o : Operand)
    (after : List Operand) : Prop where
  operands_eq : operands = before ++ o :: after
  mem : slot ∈ f.row.slots
  takes : slot.source.takesAddress = true
  gives : slot.Gives f a o
  kind : ∃ m : MemoryRef, o.kind = .memory m ∧ m.disp = f.displacement (slot.size.bits f) disp
  others : ∀ x, x ∈ before ∨ x ∈ after →
    ∃ s ∈ f.row.slots, s.source.takesAddress = false ∧ s.Gives f a x

theorem Frame.SpellsOperands.gives (h : f.SpellsOperands a body address length disp parts)
    {p : Part} (hp : p ∈ parts) : p.value.GivenBy f a p.slot := by
  obtain ⟨t, t', hread⟩ := h.reads p hp
  exact readSlot_gives f a address p.slot t p.value t' hread

theorem Frame.SpellsOperands.exists_gives (h : f.SpellsOperands a body address length disp parts)
    (ho : o ∈ body.operands) : ∃ slot : Slot, slot.Gives f a o := by
  rw [h.operands_eq] at ho
  obtain ⟨p, hp, hop⟩ := List.mem_flatMap.mp ho
  exact ⟨p.slot, h.gives hp o hop⟩

theorem Frame.SpellsOperands.placesAddress (hf : f.Chosen) (haddress : f.hasAddress = true)
    (h : f.SpellsOperands a body address length disp parts) :
    ∃ slot before o after, f.PlacesAddress a disp body.operands slot before o after := by
  obtain ⟨before, p, after, hsplit, htakes, hbefore, hafter⟩ :=
    h.spelled.exists_addressPart hf haddress
  have hmem : ∀ x, x ∈ before ∨ x = p ∨ x ∈ after → x ∈ parts := by
    intro x hx
    rw [hsplit, List.mem_append, List.mem_cons]
    exact hx
  have hp : p ∈ parts := hmem p (.inr (.inl rfl))
  obtain ⟨m, hkinds, hdisp⟩ : ∃ m : MemoryRef, p.kinds = [.memory m] ∧
      m.disp = f.displacement (p.slot.size.bits f) disp := by
    have hmeans := (h.spelled.yields p hp).means
    rw [Slot.means_of_takesAddress htakes, if_pos haddress] at hmeans
    exact hmeans
  obtain ⟨o, hvalue, hkind⟩ := List.map_eq_singleton_iff.mp hkinds
  refine ⟨p.slot, before.flatMap (·.value.operands), o, after.flatMap (·.value.operands),
    ?_, h.spelled.slot_mem hp, htakes, ?_, ⟨m, hkind, hdisp⟩, ?_⟩
  · rw [h.operands_eq, hsplit, List.flatMap_append, List.flatMap_cons, hvalue,
      List.singleton_append]
  · exact h.gives hp o (hvalue ▸ List.mem_singleton_self o)
  · -- each of the others is of some part before or behind
    intro x hx
    obtain ⟨q, hq, hslot, hxq⟩ : ∃ q ∈ parts, q.slot.source.takesAddress = false ∧
        x ∈ q.value.operands := by
      rcases hx with hx | hx
      · obtain ⟨q, hq, hxq⟩ := List.mem_flatMap.mp hx
        exact ⟨q, hmem q (.inl hq), hbefore q hq, hxq⟩
      · obtain ⟨q, hq, hxq⟩ := List.mem_flatMap.mp hx
        exact ⟨q, hmem q (.inr (.inr hq)), hafter q hq, hxq⟩
    exact ⟨q.slot, h.spelled.slot_mem hq, hslot, h.gives hq x hxq⟩

end X86

end MachineCode
