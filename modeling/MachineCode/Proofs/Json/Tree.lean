import MachineCode.Json.Tree
import MachineCode.Proofs.Json.Token

/-!
# Documents read back

From a tree to its tokens and back: the reader has the containers around a value
on its stack, and takes the tokens of the value to the state in which the value is
complete, whatever the stack. From tokens to text and back: tokens and blanks are
read one after the other, and the only care is for numbers, which must not run
into what follows. In either written form a value is followed by a comma, a
blank, a closing sign or nothing.
-/

namespace MachineCode.Json

theorem elementTokens_cons_cons (j j' : Json) (js : List Json) :
    elementTokens (j :: j' :: js) = tokens j ++ .comma :: elementTokens (j' :: js) := by
  rw [elementTokens]
  exact List.cons_ne_nil _ _

theorem memberTokens_cons_cons (k : Option String) (j : Json) (m : Option String × Json)
    (ms : List (Option String × Json)) :
    memberTokens ((k, j) :: m :: ms)
      = .string k :: .colon :: tokens j ++ .comma :: memberTokens (m :: ms) := by
  rw [memberTokens]
  exact List.cons_ne_nil _ _

namespace Reading

/-- The reader after some tokens. -/
def run (s : Reading) (ts : List Token) : Option Reading :=
  ts.foldlM step s

theorem run_append (s : Reading) (ts us : List Token) :
    s.run (ts ++ us) = (s.run ts).bind fun s' => s'.run us :=
  List.foldlM_append

/-- A value does not begin with a closing bracket, so behind an opening one it is the first
element. -/
theorem run_firstElement (j : Json) (stack : List Open) (rest : List Token) :
    (firstElement stack).run (j.tokens ++ rest)
      = (value (.array [] :: stack)).run (j.tokens ++ rest) := by
  cases j <;> rfl

theorem run_firstElement_elementTokens (j : Json) (js : List Json) (stack : List Open)
    (rest : List Token) :
    (firstElement stack).run (elementTokens (j :: js) ++ rest)
      = (value (.array [] :: stack)).run (elementTokens (j :: js) ++ rest) := by
  cases js with
  | nil => rw [elementTokens, run_firstElement]
  | cons j' js => rw [elementTokens_cons_cons, List.append_assoc, run_firstElement]

theorem run_firstKey_memberTokens (m : Option String × Json) (ms : List (Option String × Json))
    (stack : List Open) (rest : List Token) :
    (firstKey stack).run (memberTokens (m :: ms) ++ rest)
      = (key [] stack).run (memberTokens (m :: ms) ++ rest) := by
  cases ms with
  | nil => rfl
  | cons m' ms => rw [memberTokens_cons_cons]; rfl

mutual

theorem run_tokens (j : Json) (stack : List Open) :
    (value stack).run j.tokens = some (complete j stack) := by
  match j with
  | null | bool _ | integer _ | decimal _ | string _ => rw [tokens]; rfl
  | array [] | object [] => rfl
  | array (j :: js) =>
      show (firstElement stack).run (elementTokens (j :: js) ++ [.closeBracket]) = _
      rw [run_firstElement_elementTokens, run_elementTokens j js [] stack]
      rfl
  | object (m :: ms) =>
      show (firstKey stack).run (memberTokens (m :: ms) ++ [.closeBrace]) = _
      rw [run_firstKey_memberTokens, run_memberTokens m ms [] stack]
      rfl
termination_by sizeOf j

theorem run_elementTokens (j : Json) (js done : List Json) (stack : List Open) :
    (value (.array done :: stack)).run (elementTokens (j :: js) ++ [.closeBracket])
      = some (complete (.array (done.reverse ++ j :: js)) stack) := by
  match js with
  | [] =>
      rw [elementTokens, run_append, run_tokens]
      simp [run, step, afterValue]
  | j' :: js =>
      rw [elementTokens_cons_cons, List.append_assoc, run_append, run_tokens]
      show (value (.array (j :: done) :: stack)).run (elementTokens (j' :: js) ++ _) = _
      rw [run_elementTokens j' js (j :: done) stack, List.reverse_cons, List.append_assoc]
      rfl
termination_by sizeOf (j :: js)

theorem run_memberTokens (m : Option String × Json) (ms done : List (Option String × Json))
    (stack : List Open) :
    (key done stack).run (memberTokens (m :: ms) ++ [.closeBrace])
      = some (complete (.object (done.reverse ++ m :: ms)) stack) := by
  match m, ms with
  | (k, j), [] =>
      show (value (.object done k :: stack)).run (j.tokens ++ [.closeBrace]) = _
      rw [run_append, run_tokens]
      simp [run, step, afterValue]
  | (k, j), m' :: ms =>
      rw [memberTokens_cons_cons, List.append_assoc]
      show (value (.object done k :: stack)).run (j.tokens ++ _) = _
      rw [run_append, run_tokens]
      show (key ((k, j) :: done) stack).run (memberTokens (m' :: ms) ++ _) = _
      rw [run_memberTokens m' ms ((k, j) :: done) stack, List.reverse_cons, List.append_assoc]
      rfl
termination_by sizeOf (m :: ms)

end

end Reading

/-- Every document is read back from its tokens. -/
theorem ofTokens?_tokens (j : Json) : ofTokens? j.tokens = some j := by
  show ((Reading.value []).run j.tokens).bind Reading.result? = some j
  rw [Reading.run_tokens]
  rfl

/-! ## Tokens from text

A written document is a list of pieces. It could be read piece by piece without more
ado, were it not for numbers, which go on for as long as the characters do. Hence two
conditions: `Reads` asks that what follows ends a number, and `SetsApart` says of some
pieces that they do. -/

/-- Whether pieces of text are read as tokens, whatever follows the text. -/
def Reads (ps : List String) (ts : List Token) : Prop :=
  ∀ rest, EndsNumber rest →
    tokens? ((String.join ps).toList ++ rest) = (tokens? rest).map (ts ++ ·)

/-- Whether pieces of text end a number in front of them, whatever follows the text. -/
def SetsApart (ps : List String) : Prop :=
  ∀ rest, EndsNumber ((String.join ps).toList ++ rest)

theorem SetsApart.of_head {p : String} {ps : List String} {c : Char} {cs : List Char}
    (hp : p.toList = c :: cs) (hc : isDigit c = false ∧ c ∉ ['.', 'e', 'E']) :
    SetsApart (p :: ps) := by
  intro rest d hd
  rw [String.join_cons, String.toList_append, hp] at hd
  cases hd
  exact hc

/-- The signs behind a value set it apart. -/
theorem SetsApart.of_sign {t : Token} (ht : t ∈ [Token.comma, .closeBracket, .closeBrace])
    (ps : List String) : SetsApart (t.text :: ps) := by
  simp only [List.mem_cons, List.not_mem_nil, or_false] at ht
  rcases ht with rfl | rfl | rfl
  all_goals exact of_head (String.toList_ofList (l := [_])) (by decide)

theorem SetsApart.of_newLine (depth : Nat) (ps : List String) :
    SetsApart (newLine depth :: ps) :=
  of_head String.toList_ofList (by decide)

namespace Reads

variable {ps qs : List String} {ts us : List Token}

theorem nil : Reads [] [] := by
  intro rest _
  simp

theorem append (hps : Reads ps ts) (hqs : Reads qs us) (hapart : SetsApart qs) :
    Reads (ps ++ qs) (ts ++ us) := by
  intro rest hrest
  rw [String.join_append, String.toList_append, List.append_assoc, hps _ (hapart rest),
    hqs rest hrest, Option.map_map]
  congr 1
  funext vs
  exact (List.append_assoc ts us vs).symm

theorem gap {p : String} (hp : ∀ c ∈ p.toList, isGap c = true) (hps : Reads ps ts) :
    Reads (p :: ps) ts := by
  intro rest hrest
  rw [String.join_cons, String.toList_append, List.append_assoc, tokens?_append_of_gap hp,
    hps rest hrest]

theorem token (t : Token) (ht : t.IsPlain) : Reads [t.text] [t] := by
  intro rest hrest
  rw [String.join_cons, String.toList_append, List.append_assoc,
    tokens?_of_token? (token?_text ht fun _ => by simpa using hrest)]
  simp

/-- A sign or a string may have any token behind it. -/
theorem sign (t : Token) (ht : t.IsPlain) (hnumber : t.isNumber = false) (hps : Reads ps ts) :
    Reads (t.text :: ps) (t :: ts) := by
  intro rest hrest
  have hself : t.isNumber = true → EndsNumber ((String.join ps).toList ++ rest) := by
    simp [hnumber]
  rw [String.join_cons, String.toList_append, List.append_assoc,
    tokens?_of_token? (token?_text ht hself), hps rest hrest, Option.map_map]
  rfl

end Reads

theorem Reads.newLine {ps : List String} {ts : List Token} (depth : Nat) (hps : Reads ps ts) :
    Reads (newLine depth :: ps) ts := by
  refine .gap (fun c hc => ?_) hps
  rw [Json.newLine, String.toList_ofList] at hc
  rcases List.mem_cons.mp hc with rfl | hc
  · rfl
  · exact List.eq_of_mem_replicate hc ▸ rfl

/-- Whether all tokens of a document are read back from their text. -/
def IsPlain (j : Json) : Prop :=
  ∀ t ∈ j.tokens, t.IsPlain

theorem isPlain_array {js : List Json} (h : ∀ j ∈ js, j.IsPlain) : (array js).IsPlain := by
  have helements : ∀ t ∈ elementTokens js, t.IsPlain := by
    induction js with
    | nil => exact fun t ht => absurd ht List.not_mem_nil
    | cons j js ih =>
        obtain ⟨hj, hjs⟩ := List.forall_mem_cons.mp h
        cases js with
        | nil => exact hj
        | cons j' js =>
            rw [elementTokens_cons_cons]
            exact List.forall_mem_append.mpr ⟨hj, List.forall_mem_cons.mpr ⟨trivial, ih hjs⟩⟩
  rw [IsPlain, tokens, List.forall_mem_append, List.forall_mem_cons, List.forall_mem_singleton]
  exact ⟨⟨trivial, helements⟩, trivial⟩

theorem isPlain_object {ms : List (Option String × Json)}
    (h : ∀ m ∈ ms, m.1.isSome = true ∧ m.2.IsPlain) : (object ms).IsPlain := by
  have hmembers : ∀ t ∈ memberTokens ms, t.IsPlain := by
    induction ms with
    | nil => exact fun t ht => absurd ht List.not_mem_nil
    | cons m ms ih =>
        obtain ⟨⟨hkey, hvalue⟩, hms⟩ := List.forall_mem_cons.mp h
        have hm : ∀ t ∈ Token.string m.1 :: .colon :: m.2.tokens, t.IsPlain :=
          List.forall_mem_cons.mpr ⟨hkey, List.forall_mem_cons.mpr ⟨trivial, hvalue⟩⟩
        cases ms with
        | nil => exact hm
        | cons m' ms =>
            rw [memberTokens_cons_cons]
            exact List.forall_mem_append.mpr ⟨hm, List.forall_mem_cons.mpr ⟨trivial, ih hms⟩⟩
  rw [IsPlain, tokens, List.forall_mem_append, List.forall_mem_cons, List.forall_mem_singleton]
  exact ⟨⟨trivial, hmembers⟩, trivial⟩

mutual

theorem reads_tokens (j : Json) (h : ∀ t ∈ j.tokens, t.IsPlain) :
    Reads (j.tokens.map Token.text) j.tokens := by
  match j with
  | null | bool _ | integer _ | decimal _ | string _ =>
      rw [tokens] at h ⊢
      exact .token _ (h _ List.mem_cons_self)
  | array js =>
      rw [tokens, List.forall_mem_append, List.forall_mem_cons] at h
      rw [tokens, List.map_append, List.map_cons]
      exact (Reads.sign .openBracket trivial rfl (reads_elementTokens js h.1.2)).append
        (.token .closeBracket trivial) (.of_sign (by decide) [])
  | object ms =>
      rw [tokens, List.forall_mem_append, List.forall_mem_cons] at h
      rw [tokens, List.map_append, List.map_cons]
      exact (Reads.sign .openBrace trivial rfl (reads_memberTokens ms h.1.2)).append
        (.token .closeBrace trivial) (.of_sign (by decide) [])

theorem reads_elementTokens (js : List Json) (h : ∀ t ∈ elementTokens js, t.IsPlain) :
    Reads ((elementTokens js).map Token.text) (elementTokens js) := by
  match js with
  | [] => exact .nil
  | [j] => exact reads_tokens j h
  | j :: j' :: js =>
      rw [elementTokens_cons_cons, List.forall_mem_append, List.forall_mem_cons] at h
      rw [elementTokens_cons_cons, List.map_append, List.map_cons]
      exact (reads_tokens j h.1).append
        (.sign .comma trivial rfl (reads_elementTokens (j' :: js) h.2.2)) (.of_sign (by decide) _)

theorem reads_memberTokens (ms : List (Option String × Json))
    (h : ∀ t ∈ memberTokens ms, t.IsPlain) :
    Reads ((memberTokens ms).map Token.text) (memberTokens ms) := by
  match ms with
  | [] => exact .nil
  | [(k, j)] =>
      obtain ⟨hkey, -, hvalue⟩ := List.forall_mem_cons.mp h |>.imp_right List.forall_mem_cons.mp
      exact .sign (.string k) hkey rfl (.sign .colon trivial rfl (reads_tokens j hvalue))
  | (k, j) :: m :: ms =>
      rw [memberTokens_cons_cons, List.forall_mem_append, List.forall_mem_cons,
        List.forall_mem_cons, List.forall_mem_cons] at h
      obtain ⟨⟨hkey, -, hvalue⟩, -, hms⟩ := h
      rw [memberTokens_cons_cons, List.map_append, List.map_cons, List.map_cons, List.map_cons]
      exact (Reads.sign (.string k) hkey rfl
          (.sign .colon trivial rfl (reads_tokens j hvalue))).append
        (.sign .comma trivial rfl (reads_memberTokens (m :: ms) hms)) (.of_sign (by decide) _)

end

theorem elementLayout_cons_cons (depth : Nat) (j j' : Json) (js : List Json) :
    elementLayout depth (j :: j' :: js)
      = layout depth j ++ "," :: newLine depth :: elementLayout depth (j' :: js) := by
  rw [elementLayout]
  exact List.cons_ne_nil _ _

theorem memberLayout_cons_cons (depth : Nat) (k : Option String) (j : Json)
    (m : Option String × Json) (ms : List (Option String × Json)) :
    memberLayout depth ((k, j) :: m :: ms)
      = Token.text (.string k) :: ":" :: " " :: layout depth j
        ++ "," :: newLine depth :: memberLayout depth (m :: ms) := by
  rw [memberLayout]
  exact List.cons_ne_nil _ _

mutual

theorem reads_layout (depth : Nat) (j : Json) (h : ∀ t ∈ j.tokens, t.IsPlain) :
    Reads (j.layout depth) j.tokens := by
  match j with
  | null | bool _ | integer _ | decimal _ | string _ =>
      rw [tokens] at h
      rw [tokens, layout]
      exact .token _ (h _ List.mem_cons_self)
  | array [] =>
      exact .sign .openBracket trivial rfl (.token .closeBracket trivial)
  | object [] =>
      exact .sign .openBrace trivial rfl (.token .closeBrace trivial)
  | array (j :: js) =>
      rw [tokens, List.forall_mem_append, List.forall_mem_cons] at h
      rw [tokens, layout]
      exact (Reads.sign .openBracket trivial rfl
          (.newLine (depth + 1) (reads_elementLayout (depth + 1) (j :: js) h.1.2))).append
        (.newLine depth (.token .closeBracket trivial)) (.of_newLine depth _)
  | object (m :: ms) =>
      rw [tokens, List.forall_mem_append, List.forall_mem_cons] at h
      rw [tokens, layout]
      exact (Reads.sign .openBrace trivial rfl
          (.newLine (depth + 1) (reads_memberLayout (depth + 1) (m :: ms) h.1.2))).append
        (.newLine depth (.token .closeBrace trivial)) (.of_newLine depth _)

theorem reads_elementLayout (depth : Nat) (js : List Json)
    (h : ∀ t ∈ elementTokens js, t.IsPlain) :
    Reads (elementLayout depth js) (elementTokens js) := by
  match js with
  | [] => exact .nil
  | [j] => exact reads_layout depth j h
  | j :: j' :: js =>
      rw [elementTokens_cons_cons, List.forall_mem_append, List.forall_mem_cons] at h
      rw [elementTokens_cons_cons, elementLayout_cons_cons]
      exact (reads_layout depth j h.1).append
        (.sign .comma trivial rfl (.newLine depth (reads_elementLayout depth (j' :: js) h.2.2)))
        (.of_sign (t := .comma) (by decide) _)

theorem reads_memberLayout (depth : Nat) (ms : List (Option String × Json))
    (h : ∀ t ∈ memberTokens ms, t.IsPlain) :
    Reads (memberLayout depth ms) (memberTokens ms) := by
  have hblank : ∀ c ∈ " ".toList, isGap c = true := List.all_eq_true.mp (by decide)
  match ms with
  | [] => exact .nil
  | [(k, j)] =>
      obtain ⟨hkey, -, hvalue⟩ := List.forall_mem_cons.mp h |>.imp_right List.forall_mem_cons.mp
      exact .sign (.string k) hkey rfl
        (.sign .colon trivial rfl (.gap hblank (reads_layout depth j hvalue)))
  | (k, j) :: m :: ms =>
      rw [memberTokens_cons_cons, List.forall_mem_append, List.forall_mem_cons,
        List.forall_mem_cons, List.forall_mem_cons] at h
      obtain ⟨⟨hkey, -, hvalue⟩, -, hms⟩ := h
      rw [memberTokens_cons_cons, memberLayout_cons_cons]
      exact (Reads.sign (.string k) hkey rfl
          (.sign .colon trivial rfl (.gap hblank (reads_layout depth j hvalue)))).append
        (.sign .comma trivial rfl (.newLine depth (reads_memberLayout depth (m :: ms) hms)))
        (.of_sign (t := .comma) (by decide) _)

end

theorem Reads.parse? {ps : List String} {j : Json} (h : Reads ps j.tokens) :
    Json.parse? (String.join ps) = some j := by
  have hread := h [] fun _ hc => by cases hc
  have hend : tokens? [] = some [] := by rw [tokens?]; rfl
  rw [List.append_nil, hend] at hread
  rw [Json.parse?, hread]
  simp [ofTokens?_tokens]

theorem parse?_compact {j : Json} (h : j.IsPlain) : parse? j.compact = some j :=
  (reads_tokens j h).parse?

theorem parse?_pretty {j : Json} (h : j.IsPlain) : parse? j.pretty = some j :=
  (reads_layout 0 j h).parse?

end MachineCode.Json
