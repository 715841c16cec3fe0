import MachineCode.Json.Token

/-!
# Trees and token sequences

Every document has a token sequence, and a token sequence is read back one token
at a time. The reader's state is the stack of containers that are still open and
what may follow: a value, a key, a colon, or the end of the innermost container.
-/

namespace MachineCode.Json

mutual

/-- The tokens of a document. -/
def tokens : Json → List Token
  | null => [.null]
  | bool b => [.bool b]
  | integer value => [.integer value]
  | decimal n => [.decimal n]
  | string s => [.string s]
  | array elements => .openBracket :: elementTokens elements ++ [.closeBracket]
  | object members => .openBrace :: memberTokens members ++ [.closeBrace]

/-- The tokens between the brackets of an array. -/
def elementTokens : List Json → List Token
  | [] => []
  | [j] => tokens j
  | j :: js => tokens j ++ .comma :: elementTokens js

/-- The tokens between the braces of an object. -/
def memberTokens : List (Option String × Json) → List Token
  | [] => []
  | [(k, j)] => .string k :: .colon :: tokens j
  | (k, j) :: ms => .string k :: .colon :: tokens j ++ .comma :: memberTokens ms

end

/-- A container that is still open, with what it holds so far, last first. -/
inductive Open where
  | array (done : List Json)
  /-- An object that waits for the value of a key. -/
  | object (done : List (Option String × Json)) (key : Option String)

/-- What the reader waits for. -/
inductive Reading where
  | value (stack : List Open)
  /-- The first element of an array, or its end. -/
  | firstElement (stack : List Open)
  /-- The first key of an object, or its end. -/
  | firstKey (stack : List Open)
  | key (done : List (Option String × Json)) (stack : List Open)
  | colon (done : List (Option String × Json)) (key : Option String) (stack : List Open)
  /-- A value is complete. -/
  | complete (j : Json) (stack : List Open)

namespace Reading

/-- Takes a token where a value must begin. -/
def beginValue (stack : List Open) : Token → Option Reading
  | .null => some (complete .null stack)
  | .bool b => some (complete (.bool b) stack)
  | .integer i => some (complete (.integer i) stack)
  | .decimal n => some (complete (.decimal n) stack)
  | .string s => some (complete (.string s) stack)
  | .openBracket => some (firstElement stack)
  | .openBrace => some (firstKey stack)
  | .closeBracket | .closeBrace | .comma | .colon => none

/-- Takes a token behind a complete value. -/
def afterValue (j : Json) : List Open → Token → Option Reading
  | .array done :: stack, .comma => some (value (.array (j :: done) :: stack))
  | .array done :: stack, .closeBracket => some (complete (.array (j :: done).reverse) stack)
  | .object done k :: stack, .comma => some (key ((k, j) :: done) stack)
  | .object done k :: stack, .closeBrace =>
    some (complete (.object ((k, j) :: done).reverse) stack)
  | _, _ => none

/-- Takes the next token. -/
def step : Reading → Token → Option Reading
  | value stack, t => beginValue stack t
  | firstElement stack, .closeBracket => some (complete (.array []) stack)
  | firstElement stack, t => beginValue (.array [] :: stack) t
  | firstKey stack, .closeBrace => some (complete (.object []) stack)
  | firstKey stack, .string k => some (colon [] k stack)
  | firstKey _, _ => none
  | key done stack, .string k => some (colon done k stack)
  | key _ _, _ => none
  | colon done k stack, .colon => some (value (.object done k :: stack))
  | colon _ _ _, _ => none
  | complete j stack, t => afterValue j stack t

/-- The document, if it is complete. -/
def result? : Reading → Option Json
  | complete j [] => some j
  | _ => none

end Reading

/-- The document with a token sequence. -/
def ofTokens? (ts : List Token) : Option Json := do
  let state ← ts.foldlM Reading.step (.value [])
  state.result?

/-- The document with a text. -/
def parse? (s : String) : Option Json := do
  let ts ← tokens? s.toList
  ofTokens? ts

/-- The text without blanks. -/
def compact (j : Json) : String :=
  String.join (j.tokens.map Token.text)

/-- A new line, indented by two blanks for each open container. -/
def newLine (depth : Nat) : String :=
  String.ofList ('\n' :: List.replicate (2 * depth) ' ')

mutual

/-- The pieces of the indented text: tokens and the blanks between them. -/
def layout (depth : Nat) : Json → List String
  | array [] => ["[", "]"]
  | array (j :: js) =>
    "[" :: newLine (depth + 1) :: elementLayout (depth + 1) (j :: js) ++ [newLine depth, "]"]
  | object [] => ["\x7b", "\x7d"]
  | object (m :: ms) =>
    "\x7b" :: newLine (depth + 1) :: memberLayout (depth + 1) (m :: ms) ++ [newLine depth, "\x7d"]
  | null => [Token.text .null]
  | bool b => [Token.text (.bool b)]
  | integer value => [Token.text (.integer value)]
  | decimal n => [Token.text (.decimal n)]
  | string s => [Token.text (.string s)]

/-- The elements of an array, a line each. -/
def elementLayout (depth : Nat) : List Json → List String
  | [] => []
  | [j] => layout depth j
  | j :: js => layout depth j ++ "," :: newLine depth :: elementLayout depth js

/-- The members of an object, a line each. -/
def memberLayout (depth : Nat) : List (Option String × Json) → List String
  | [] => []
  | [(k, j)] => Token.text (.string k) :: ":" :: " " :: layout depth j
  | (k, j) :: ms =>
    Token.text (.string k) :: ":" :: " " :: layout depth j
      ++ "," :: newLine depth :: memberLayout depth ms

end

/-- The text with a line for each member and element. -/
def pretty (j : Json) : String :=
  String.join (j.layout 0)

end MachineCode.Json
