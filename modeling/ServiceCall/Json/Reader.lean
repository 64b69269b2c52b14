import ServiceCall.Json.Numeral
import ServiceCall.Json.Lexer

/-!
# From tokens to values

A machine over tokens with a stack of the arrays and objects that are still open. At most 127 of
them may be open at once. The first fault in the order of the text decides what is wrong with it.
-/

namespace ServiceCall.Json

/-- What is wrong with a document. -/
inductive Fault where
  /-- Not the syntax of a document. -/
  | malformed
  /-- The text ended too early. -/
  | cutShort
  /-- A document, but not of the wanted type. -/
  | unfitting
deriving DecidableEq, Repr

/-- A document that is still to be read. -/
structure Input where
  tokens : List Token
  ending : Ending

/-- The input of a body. -/
def Input.ofBytes (body : Bytes) : Input :=
  let (tokens, ending) := lex body
  ⟨tokens, ending⟩

namespace Reader

/-- A container with a value still open inside it; items and members are in reverse. -/
inductive Frame where
  | array (items : List Json)
  | object (members : List (String × Json)) (name : String)

/-- What has just been read of the innermost container. -/
inductive Phase where
  | value
  | firstItem
  | item (items : List Json)
  | key (members : List (String × Json)) (first : Bool)
  | name (members : List (String × Json)) (name : String)
  | member (members : List (String × Json))
  | done (value : Json)

/-- The containers outside the innermost one, and where it stands. -/
structure State where
  outer : List Frame := []
  phase : Phase := .value

/-- How a reader takes single values: strictly, or only to pass over them. -/
inductive Mode where
  | strict
  | skip
deriving DecidableEq

/-- The greatest number of containers that may be open at once. -/
def maxDepth : Nat := 127

/-- A value is complete: the state of the container that it stands in. -/
def complete (outer : List Frame) (v : Json) : State :=
  match outer with
  | [] => ⟨[], .done v⟩
  | .array items :: rest => ⟨rest, .item (v :: items)⟩
  | .object members name :: rest => ⟨rest, .member (setMember name v members)⟩

/-- The first token of a value. -/
def beginValue (mode : Mode) (outer : List Frame) : Token → Except Fault State
  | .null => .ok (complete outer .null)
  | .bool b => .ok (complete outer (.bool b))
  | .number n =>
    match mode, n.number? with
    | .skip, _ => .ok (complete outer .null)
    | .strict, some x => .ok (complete outer (.number x))
    | .strict, none => .error .malformed
  | .text content =>
    match mode, content with
    | .skip, _ => .ok (complete outer .null)
    | .strict, some s => .ok (complete outer (.text s))
    | .strict, none => .error .malformed
  | .openArray =>
    if mode = .skip ∨ outer.length < maxDepth then .ok ⟨outer, .firstItem⟩ else .error .malformed
  | .openObject =>
    if mode = .skip ∨ outer.length < maxDepth then .ok ⟨outer, .key [] true⟩
    else .error .malformed
  | _ => .error .malformed

/-- The name of a member; one that is passed over need not be text. -/
def readName (mode : Mode) (content : Option String) : Except Fault String :=
  match mode, content with
  | _, some s => .ok s
  | .skip, none => .ok ""
  | .strict, none => .error .malformed

/-- One token of a value that is not complete. -/
def step (mode : Mode) (s : State) (t : Token) : Except Fault State :=
  match s.phase, t with
  | .value, t => beginValue mode s.outer t
  | .firstItem, .closeArray => .ok (complete s.outer (.array []))
  -- any other token begins the first item, which is inside of the array
  | .firstItem, t => beginValue mode (.array [] :: s.outer) t
  | .item items, .comma => .ok ⟨.array items :: s.outer, .value⟩
  | .item items, .closeArray => .ok (complete s.outer (.array items.reverse))
  | .key members _, .text content =>
    (readName mode content).map fun name => { s with phase := .name members name }
  -- where a name is due, only an object without members may end
  | .key members true, .closeObject => .ok (complete s.outer (.object members))
  | .name members name, .colon => .ok ⟨.object members name :: s.outer, .value⟩
  | .member members, .comma => .ok { s with phase := .key members false }
  | .member members, .closeObject => .ok (complete s.outer (.object members))
  | _, _ => .error .malformed

/-- What is wrong with an input that ended before its value did. -/
def endingFault (mode : Mode) (phase : Phase) (ending : Ending) : Fault :=
  match ending, phase with
  | .complete, _ => .cutShort
  | .cutText lone, .value | .cutText lone, .firstItem | .cutText lone, .key _ _ =>
    if lone && mode == .strict then .malformed else .cutShort
  | .cutWord, .value | .cutWord, .firstItem => .cutShort
  | .cutNumber, .value | .cutNumber, .firstItem =>
    if mode = .strict then .cutShort else .malformed
  | _, _ => .malformed

/-- Reads on until the value is complete; what follows it stays in the input. -/
def run (mode : Mode) (ending : Ending) : State → List Token → Except Fault (Json × List Token)
  | s, tokens =>
    match s.phase, tokens with
    | .done v, rest => .ok (v, rest)
    | phase, [] => .error (endingFault mode phase ending)
    | _, t :: rest => (step mode s t).bind fun next => run mode ending next rest

end Reader

/-- The value at the head of an input, and the input behind it. -/
def Input.value (input : Input) : Except Fault (Json × Input) :=
  (Reader.run .strict input.ending {} input.tokens).map fun (v, rest) => (v, { input with tokens := rest })

/-- The input behind the value at its head, whatever that value is. -/
def Input.skip (input : Input) : Except Fault Input :=
  (Reader.run .skip input.ending {} input.tokens).map fun (_, rest) => { input with tokens := rest }

/-- Nothing but blanks is left. -/
def Input.finish (input : Input) : Except Fault Unit :=
  if input.tokens.isEmpty ∧ input.ending = .complete then .ok () else .error .malformed

/-- The value of a whole body. -/
def read (body : Bytes) : Except Fault Json := do
  let (v, rest) ← (Input.ofBytes body).value
  rest.finish
  return v

/-- The value of a whole text. -/
def readText (s : String) : Except Fault Json := read (Utf8.encode s)

end ServiceCall.Json
