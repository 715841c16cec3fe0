import MachineCode.Proofs.Runs
import MachineCode.Proofs.X86.Alike
import MachineCode.Proofs.X86.Layout
import MachineCode.Proofs.X86.Prefixes

/-!
# Two spellings of a VEX encoding

The escape `C5` with its one payload byte abbreviates `C4` with two: the fields
that the short payload lacks have fixed values in the long one. Both spellings
are escapes under the same conditions, and lead to the same head, one byte apart.
From there on the readers are in lockstep, since a vector encoding has no branch
slot that would ask for the length. The only difference that is left is at the
longest instructions, for which the long spelling is a byte too long.
-/

namespace MachineCode.X86

open Bytes Read

/-- A VEX escape with one payload byte. -/
def shortVex (v : UInt8) : List UInt8 :=
  [0xc5, v]

/-- The VEX escape with two payload bytes that says the same. -/
def longVex (v : UInt8) : List UInt8 :=
  [0xc4, v &&& 0x80 ||| 0x61, v &&& 0x7f]

/-- The head behind either spelling. -/
def vexHead (mode : Width) (p : Prefixes) (v : UInt8) : Head where
  mode
  prefixes := p
  encoding := .vex
  map := .map0F
  fields := (Fields.ofShort v).inMode mode

variable {mode : Width} {v : UInt8} {p : Prefixes}

/-- The long payload names the map of the short one, and has its fields. -/
theorem longVex_payload (v : UInt8) :
    (v &&& 0x80 ||| 0x61) &&& 0x1f = 1 ∧
      (Fields.ofFirst (v &&& 0x80 ||| 0x61)).addSecond (v &&& 0x7f) = Fields.ofShort v := by
  have hall : ∀ b : BitVec 8,
      (UInt8.ofBitVec b &&& 0x80 ||| 0x61) &&& 0x1f = 1 ∧
        (Fields.ofFirst (UInt8.ofBitVec b &&& 0x80 ||| 0x61)).addSecond
          (UInt8.ofBitVec b &&& 0x7f) = Fields.ofShort (UInt8.ofBitVec b) := by
    decide +kernel
  exact hall v.toBitVec

/-- Outside 64-bit mode either payload begins with two set bits. -/
theorem vex_top_bits (hv : 0xc0 ≤ v) :
    v >>> 6 = 3 ∧ (v &&& 0x80 ||| 0x61) >>> 6 = 3 := by
  have hall : ∀ b : BitVec 8, 0xc0 ≤ UInt8.ofBitVec b →
      UInt8.ofBitVec b >>> 6 = 3 ∧ (UInt8.ofBitVec b &&& 0x80 ||| 0x61) >>> 6 = 3 := by
    decide +kernel
  exact hall v.toBitVec hv

theorem ofBytes?_shortVex (hv : mode ≠ .w64 → 0xc0 ≤ v) (tail : List UInt8) :
    Escape.ofBytes? mode (shortVex v ++ tail) = some .vexShort := by
  by_cases hmode : mode = .w64
  · rw [hmode]
    rfl
  · have htop := (vex_top_bits (hv hmode)).1
    simp [shortVex, Escape.ofBytes?, htop]

theorem ofBytes?_longVex (hv : mode ≠ .w64 → 0xc0 ≤ v) (tail : List UInt8) :
    Escape.ofBytes? mode (longVex v ++ tail) = some .vexLong := by
  by_cases hmode : mode = .w64
  · rw [hmode]
    rfl
  · have htop := (vex_top_bits (hv hmode)).2
    simp [longVex, Escape.ofBytes?, htop]

theorem add?_vexEscape {b : UInt8} (hb : b = 0xc4 ∨ b = 0xc5) : p.add? mode b = none := by
  rcases hb with rfl | rfl <;>
    simp [Prefixes.add?, Prefixes.addLegacy?, segmentOverride?]

theorem readHeadFrom_shortVex (hp : p.actOnVectors = false) (hv : mode ≠ .w64 → 0xc0 ≤ v)
    (s u : Nat) (tail : List UInt8) :
    readHeadFrom mode p ⟨s, u, shortVex v ++ tail⟩ =
      .ok (vexHead mode p v) ⟨s, u + 2, tail⟩ := by
  let h : Head := { mode, prefixes := p }
  have hnot : ¬h.prefixes.actOnVectors = true := by
    rw [hp]
    exact Bool.false_ne_true
  have hbytes : Read.bytes Escape.vexShort.payloadLength
      (Tape.advance ⟨s, u, shortVex v ++ tail⟩ 1) = .ok [v] ⟨s, u + 2, tail⟩ := rfl
  refine (readHeadFrom_vector (add?_vexEscape (.inr rfl)) (ofBytes?_shortVex hv tail)).trans ?_
  exact (readEscaped_of_bytes hnot hbytes).1 rfl

theorem readHeadFrom_longVex (hp : p.actOnVectors = false) (hv : mode ≠ .w64 → 0xc0 ≤ v)
    (s u : Nat) (tail : List UInt8) :
    readHeadFrom mode p ⟨s, u, longVex v ++ tail⟩ =
      .ok (vexHead mode p v) ⟨s, u + 3, tail⟩ := by
  let h : Head := { mode, prefixes := p }
  have hnot : ¬h.prefixes.actOnVectors = true := by
    rw [hp]
    exact Bool.false_ne_true
  have hbytes : Read.bytes Escape.vexLong.payloadLength
      (Tape.advance ⟨s, u, longVex v ++ tail⟩ 1) =
        .ok [v &&& 0x80 ||| 0x61, v &&& 0x7f] ⟨s, u + 3, tail⟩ := rfl
  have hread : Scan.readPayload { h with encoding := .vex } .vexLong
      [v &&& 0x80 ||| 0x61, v &&& 0x7f] = (vexHead mode p v, none) := by
    obtain ⟨hmap, hfields⟩ := longVex_payload v
    simp only [Scan.readPayload, Scan.readMiddle, hmap, hfields]
    rfl
  refine (readHeadFrom_vector (add?_vexEscape (.inl rfl)) (ofBytes?_longVex hv tail)).trans ?_
  have hescaped := (readEscaped_of_bytes hnot hbytes).1
  rw [Escape.encoding, hread] at hescaped
  exact hescaped rfl

/-- Whether a byte is a prefix that may stand before a VEX escape: an address size or a segment. -/
def precedesVex (b : UInt8) : Bool :=
  b == 0x67 || (segmentOverride? b).isSome

theorem precedesVex_cases {b : UInt8} (hb : precedesVex b = true) :
    b ∈ [0x67, 0x26, 0x2e, 0x36, 0x3e, 0x64, 0x65] := by
  have hall : ∀ c : BitVec 8, precedesVex (UInt8.ofBitVec c) = true →
      UInt8.ofBitVec c ∈ [0x67, 0x26, 0x2e, 0x36, 0x3e, 0x64, 0x65] := by
    decide +kernel
  exact hall b.toBitVec hb

theorem add?_precedesVex {b : UInt8} (hb : precedesVex b = true) (hp : p.actOnVectors = false) :
    ∃ p', p.add? mode b = some p' ∧ p'.actOnVectors = false := by
  simp only [Prefixes.actOnVectors, Bool.or_eq_false_iff] at hp
  obtain ⟨⟨⟨-, hsize⟩, hlock⟩, hrepeats⟩ := hp
  have hmem := precedesVex_cases hb
  simp only [List.mem_cons, List.not_mem_nil, or_false] at hmem
  rcases hmem with rfl | rfl | rfl | rfl | rfl | rfl | rfl <;>
    refine ⟨_, by simp [Prefixes.add?, Prefixes.addLegacy?, segmentOverride?]; rfl, ?_⟩ <;>
    simp [Prefixes.actOnVectors, hsize, hlock, hrepeats]

theorem foldlM_precedesVex {run : List UInt8} (hrun : ∀ b ∈ run, precedesVex b = true)
    (hp : p.actOnVectors = false) :
    ∃ q, run.foldlM (Prefixes.add? mode) p = some q ∧ q.actOnVectors = false := by
  induction run generalizing p with
  | nil => exact ⟨p, rfl, hp⟩
  | cons b bs ih =>
      obtain ⟨p', hadd, hp'⟩ := add?_precedesVex (hrun b List.mem_cons_self) hp
      rw [List.foldlM_cons, hadd]
      exact ih (fun c hc => hrun c (List.mem_cons_of_mem b hc)) hp'

variable {d : Nat} {h : Head}

/-- Vector encodings have no branches. -/
theorem hasSource_rel_table :
    ∀ r ∈ table, r.pattern.encoding ≠ .legacy → r.hasSource .rel = false := by
  decide +kernel

theorem Frame.Chosen.endTogether {f : Frame} (hf : f.Chosen) (henc : f.head.encoding ≠ .legacy)
    (address : UInt64) : f.EndTogether d address address := by
  obtain ⟨hmem, hencoding, -⟩ := mem_candidates.mp hf.mem
  intro hrel
  rw [hasSource_rel_table f.row hmem (by rwa [hencoding])] at hrel
  cases hrel

/-- Reads what stands behind a head. -/
def readBehind (h : Head) (address : UInt64) : Read (Frame × Body) := do
  let frame ← readSelector h
  let body ← readBody frame address
  return (frame, body)

theorem readBehind_sequential (h : Head) (address : UInt64) :
    (readBehind h address).Sequential := by
  refine (readSelector_sequential h).bind fun frame => ?_
  exact (readBody_sequential frame address).bind fun body => .pure _

theorem readParts_of_head {address : UInt64} {t t' : Tape}
    (hrun : readHeadFrom mode {} t = .ok h t') :
    readParts mode address t = readBehind h address t' := by
  have hhead : readHead mode t = .ok h t' := hrun
  rw [readParts, readFrame, bind_assoc, bind_ok hhead]
  rfl

/-- Behind a vector head, the same bytes are read the same, unless they then are too many. -/
theorem readBehind_matches (henc : h.encoding ≠ .legacy) (address : UInt64) (t : Tape) :
    Matches d (readBehind h address t) (readBehind h address (t.later d)) ∨
      ∃ parts t', readBehind h address t = .ok parts t' ∧ t'.used ≤ maxLength ∧
        maxLength < t'.used + d ∧ ∃ err t'', readBehind h address (t.later d) = .error err t'' ∧
          err.fault = .excessivePrefixes h.prefixes.count := by
  have hselector := readSelector_lockstep (d := d) h t
  generalize hx : readSelector h t = x at hselector
  generalize hy : readSelector h (t.later d) = y at hselector
  rw [readBehind]
  cases hselector with
  | error t₁ hfault =>
      rw [bind_error hx, bind_error hy]
      exact .inl (.error t₁ hfault)
  | ok f t₁ =>
      obtain ⟨opcode, t₂, -, hselect⟩ := of_bind_ok hx
      obtain ⟨-, rfl, -, hchosen⟩ := selectRow_took hselect
      rw [bind_ok hx, bind_ok hy]
      rcases (Frame.Alike.refl f).readBody_matches (hchosen.endTogether henc address) rfl t₁ with
        hbody | ⟨body, t', hok, hle, hlong, herror⟩
      · exact .inl (hbody.bind fun body => .pure (f, body))
      · exact .inr ⟨(f, body), t', bind_ok hok, hle, hlong, _, _, bind_error herror, rfl⟩

/-- The runs of the two spellings, behind a run of prefixes that is not too long. -/
theorem readParts_vexForms {run : List UInt8} {q : Prefixes}
    (hrun : run.foldlM (Prefixes.add? mode) {} = some q) (hq : q.actOnVectors = false)
    (hcount : q.count ≤ Prefixes.maxCount) (hv : mode ≠ .w64 → 0xc0 ≤ v) (address : UInt64)
    (tail : List UInt8) :
    readParts mode address { rest := run ++ (shortVex v ++ tail) } =
        readBehind (vexHead mode q v) address ⟨0, run.length + 2, tail⟩ ∧
      readParts mode address { rest := run ++ (longVex v ++ tail) } =
        readBehind (vexHead mode q v) address ⟨0, run.length + 3, tail⟩ := by
  constructor
  · refine readParts_of_head ?_
    rw [readHeadFrom_run hrun hcount, Nat.zero_add]
    exact readHeadFrom_shortVex hq hv 0 _ tail
  · refine readParts_of_head ?_
    rw [readHeadFrom_run hrun hcount, Nat.zero_add]
    exact readHeadFrom_longVex hq hv 0 _ tail

theorem decodeOne_spelled {e : Engine} (he : e.architecture = .x86) {address : UInt64}
    {run escape tail taken rest : List UInt8} {f : Frame} {body : Body} {t : Tape}
    (hparts : readParts e.mode.width address { rest := run ++ (escape ++ tail) } =
      .ok (f, body) t)
    (hsplit : tail = taken ++ rest)
    (hused : t.used = run.length + escape.length + taken.length) :
    e.decodeOne (run ++ (escape ++ tail)) 0 address =
      .ok (instructionOf f body (run ++ escape ++ taken) address e.options.detail, t.used) := by
  have htake : (run ++ (escape ++ tail)).take t.used = run ++ escape ++ taken := by
    rw [hsplit, ← List.append_assoc, ← List.append_assoc]
    refine List.take_left' ?_
    rw [List.length_append, List.length_append, hused]
  have hfound := decodeOne_of_parts he (Nat.zero_le _) hparts
  rw [List.drop_zero, htake, Nat.zero_add] at hfound
  exact hfound

theorem instructionOf_longer (f : Frame) (body : Body) {bytes bytes' : List UInt8}
    (hlen : bytes'.length = bytes.length + 1) (address : UInt64) (detail : Bool) :
    instructionOf f body bytes' address detail =
      { instructionOf f body bytes address detail with
        bytes := bytes'
        length := (instructionOf f body bytes address detail).length + 1 } := by
  have hlength : UInt16.ofNat bytes'.length = UInt16.ofNat bytes.length + 1 := by
    rw [hlen, UInt16.ofNat_add]
    rfl
  simp only [instructionOf, hlength]

/-- Two runs that keep their distance give the same instruction, or the same error. -/
theorem decodeOne_of_matches {e : Engine} (he : e.architecture = .x86) {address : UInt64}
    {run tail : List UInt8} {h : Head}
    (hshort : readParts e.mode.width address { rest := run ++ (shortVex v ++ tail) } =
      readBehind h address ⟨0, run.length + 2, tail⟩)
    (hlong : readParts e.mode.width address { rest := run ++ (longVex v ++ tail) } =
      readBehind h address ⟨0, run.length + 3, tail⟩)
    (hmatch : Matches 1 (readBehind h address ⟨0, run.length + 2, tail⟩)
      (readBehind h address (Tape.later 1 ⟨0, run.length + 2, tail⟩))) :
    (∃ i taken next,
      e.decodeOne (run ++ (shortVex v ++ tail)) 0 address = .ok (i, next) ∧
      i.bytes = run ++ shortVex v ++ taken ∧
      e.decodeOne (run ++ (longVex v ++ tail)) 0 address =
        .ok ({ i with bytes := run ++ longVex v ++ taken, length := i.length + 1 }, next + 1)) ∨
    ∃ err, e.decodeOne (run ++ (shortVex v ++ tail)) 0 address = .error err ∧
      e.decodeOne (run ++ (longVex v ++ tail)) 0 address = .error err := by
  generalize hx : readBehind h address
    ⟨0, run.length + 2, tail⟩ = x at hmatch
  generalize hy : readBehind h address
    (Tape.later 1 ⟨0, run.length + 2, tail⟩) = y at hmatch
  cases hmatch with
  | error t hfault =>
      right
      have hfailed := decodeOne_of_parts_error he (Nat.zero_le _) (hshort.trans hx)
      have hfailed' := decodeOne_of_parts_error he (Nat.zero_le _) (hlong.trans hy)
      rw [hfault] at hfailed'
      exact ⟨_, hfailed, hfailed'⟩
  | ok parts t =>
      left
      obtain ⟨f, body⟩ := parts
      obtain ⟨taken, hsplit, ht, -⟩ := (readBehind_sequential _ address _ tail).of_ok hx
      have hused : t.used = run.length + 2 + taken.length := by rw [ht]
      have hused' : (t.later 1).used = run.length + 3 + taken.length := by
        show t.used + 1 = _
        omega
      have hlen : (run ++ longVex v ++ taken).length =
          (run ++ shortVex v ++ taken).length + 1 := by
        simp only [List.length_append, shortVex, longVex, List.length_cons, List.length_nil]
        omega
      have hfound := decodeOne_spelled he (hshort.trans hx) hsplit hused
      have hfound' := decodeOne_spelled he (hlong.trans hy) hsplit hused'
      rw [instructionOf_longer f body hlen] at hfound'
      exact ⟨_, taken, _, hfound, rfl, hfound'⟩

/-- Too many prefixes, whatever stands behind them. -/
theorem decodeOne_run_excessive {e : Engine} (he : e.architecture = .x86) {run : List UInt8}
    {q : Prefixes} (hrun : run.foldlM (Prefixes.add? e.mode.width) {} = some q)
    (hover : Prefixes.maxCount < q.count) (rest : List UInt8) (address : UInt64) :
    e.decodeOne (run ++ rest) 0 address =
      .error ⟨0, .excessivePrefixes (Prefixes.maxCount + 1)⟩ := by
  obtain ⟨t, hhead⟩ := readHeadFrom_run_excessive hrun (Nat.zero_le _) hover 0 0 rest
  have hparts : readParts e.mode.width address { rest := run ++ rest } = .error _ t :=
    bind_error (bind_error hhead)
  exact decodeOne_of_parts_error he (Nat.zero_le _) hparts

/-- The two spellings of a VEX encoding give the same instruction, or the same error. Only the bytes
and their number differ, and if that would make sixteen bytes the long spelling is refused. -/
theorem decodeOne_vexForms {e : Engine} (he : e.architecture = .x86) {run : List UInt8}
    (hprefixes : ∀ b ∈ run, precedesVex b = true) (hv : e.mode.width ≠ .w64 → 0xc0 ≤ v)
    (tail : List UInt8) (address : UInt64) :
    (∃ i taken next,
      e.decodeOne (run ++ (shortVex v ++ tail)) 0 address = .ok (i, next) ∧
      i.bytes = run ++ shortVex v ++ taken ∧
      e.decodeOne (run ++ (longVex v ++ tail)) 0 address =
        .ok ({ i with bytes := run ++ longVex v ++ taken, length := i.length + 1 }, next + 1)) ∨
    (∃ err, e.decodeOne (run ++ (shortVex v ++ tail)) 0 address = .error err ∧
      e.decodeOne (run ++ (longVex v ++ tail)) 0 address = .error err) ∨
    ∃ i, e.decodeOne (run ++ (shortVex v ++ tail)) 0 address = .ok (i, 15) ∧
      e.decodeOne (run ++ (longVex v ++ tail)) 0 address =
        .error ⟨0, .excessivePrefixes run.length⟩ := by
  obtain ⟨q, hrun, hq⟩ : ∃ q, run.foldlM (Prefixes.add? e.mode.width) {} = some q ∧
      q.actOnVectors = false := foldlM_precedesVex hprefixes rfl
  have hlength := foldlM_add?_count hrun
  rw [Nat.zero_add] at hlength
  by_cases hcount : q.count ≤ Prefixes.maxCount
  · obtain ⟨hshort, hlong⟩ := readParts_vexForms hrun hq hcount hv address tail
    have henc : (vexHead e.mode.width q v).encoding ≠ .legacy := by
      intro h
      cases h
    rcases readBehind_matches (d := 1) henc address ⟨0, run.length + 2, tail⟩ with
      hmatch | ⟨⟨f, body⟩, t, hok, hle, hover, err, t', herror, hfault⟩
    · rcases decodeOne_of_matches he hshort hlong hmatch with hok | herror
      · exact .inl hok
      · exact .inr (.inl herror)
    · right; right
      have hfound := decodeOne_of_parts he (Nat.zero_le _) (hshort.trans hok)
      have hfailed := decodeOne_of_parts_error he (Nat.zero_le _) (hlong.trans herror)
      have hused : t.used = 15 := by
        rw [maxLength] at hle hover
        omega
      have hprefixes : (vexHead e.mode.width q v).prefixes.count = run.length := hlength
      rw [hused] at hfound
      rw [hfault, hprefixes] at hfailed
      exact ⟨_, hfound, hfailed⟩
  · right; left
    have hover := Nat.lt_of_not_le hcount
    exact ⟨_, decodeOne_run_excessive he hrun hover _ address,
      decodeOne_run_excessive he hrun hover _ address⟩

/-- `vzeroupper` behind an address size and a segment. -/
theorem decodeOne_vexForms_vzeroupper :
    ∃ i taken, Engine.x86Of32.decodeOne [0x67, 0x65, 0xc5, 0xf8, 0x77] 0 0x1000 = .ok (i, 5) ∧
      i.bytes = [0x67, 0x65, 0xc5, 0xf8] ++ taken ∧
      Engine.x86Of32.decodeOne [0x67, 0x65, 0xc4, 0xe1, 0x78, 0x77] 0 0x1000 =
        .ok ({ i with bytes := [0x67, 0x65, 0xc4, 0xe1, 0x78] ++ taken, length := i.length + 1 },
          6) := by
  have hprefixes : ∀ b ∈ [0x67, 0x65], precedesVex b = true :=
    List.forall_mem_cons.mpr ⟨by decide, List.forall_mem_singleton.mpr (by decide)⟩
  have hv : Engine.x86Of32.mode.width ≠ .w64 → (0xc0 : UInt8) ≤ 0xf8 := fun _ => by decide
  obtain ⟨i, hshort⟩ : ∃ i, Engine.x86Of32.decodeOne
      ([0x67, 0x65] ++ (shortVex 0xf8 ++ [0x77])) 0 0x1000 = .ok (i, 5) :=
    Engine.exists_of_next (by decide +kernel)
  rcases decodeOne_vexForms rfl hprefixes hv [0x77] 0x1000 with
    ⟨j, taken, next, hfound, hbytes, hlong⟩ | ⟨err, herror, -⟩ | ⟨j, hfound, -⟩
  · cases hshort.symm.trans hfound
    exact ⟨i, taken, hshort, hbytes, hlong⟩
  · cases hshort.symm.trans herror
  · cases hshort.symm.trans hfound

end MachineCode.X86
