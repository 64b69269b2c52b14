import ServiceCall.Json.Reader
import ServiceCall.Shape.Basic

/-!
# Decoders of typed values

A decoder takes one value of a known type off the head of a document. It reads from left to right,
so the first thing that does not fit decides the fault, even if the rest of the document is not well
formed. A decoded value is given in its canonical form: the declared fields in their order, absent
ones null.
-/

namespace ServiceCall.Json

/-- Takes a value off the head of a document. -/
abbrev Decoder := Input → Except Fault (Json × Input)

namespace Input

/-- The fault where a value of another type is found at the head. -/
def mismatch (input : Input) : Fault :=
  match input.tokens with
  | [] => Reader.endingFault .strict .value input.ending
  | .null :: _ | .bool _ :: _ | .openArray :: _ | .openObject :: _ => .unfitting
  | .number n :: _ => if n.number?.isSome then .unfitting else .malformed
  | .text (some _) :: _ => .unfitting
  | _ => .malformed

/-- The fault where only punctuation could have followed. -/
def punctuationFault (input : Input) : Fault :=
  if input.tokens.isEmpty ∧ input.ending = .complete then .cutShort else .malformed

/-- The fault where only a name could have followed. -/
def nameFault (input : Input) : Fault :=
  match input.tokens with
  | [] => Reader.endingFault .strict (.key [] false) input.ending
  | _ => .malformed

/-- Passes over the colon between a name and its value. -/
def colon (input : Input) : Except Fault Input :=
  match input.tokens with
  | .colon :: rest => .ok { input with tokens := rest }
  | _ => .error input.punctuationFault

end Input

namespace Decoder

/-- Any value. -/
def any : Decoder := Input.value

/-- Nothing but null. -/
def unit : Decoder := fun input =>
  match input.tokens with
  | .null :: rest => .ok (.null, { input with tokens := rest })
  | _ => .error input.mismatch

/-- A text. -/
def text : Decoder := fun input =>
  match input.tokens with
  | .text (some s) :: rest => .ok (.text s, { input with tokens := rest })
  | _ => .error input.mismatch

/-- A truth value. -/
def bool : Decoder := fun input =>
  match input.tokens with
  | .bool b :: rest => .ok (.bool b, { input with tokens := rest })
  | _ => .error input.mismatch

/-- A number that `accept` takes, in the form that `accept` gives it. -/
def number (accept : Number → Option Number) : Decoder := fun input =>
  match input.tokens with
  | .number n :: rest =>
    match n.number? with
    | none => .error .malformed
    | some x =>
      match accept x with
      | some y => .ok (.number y, { input with tokens := rest })
      | none => .error .unfitting
  | _ => .error input.mismatch

/-- One of a set of names; also an object with such a name and null as its only member. -/
def oneOf (names : List String) : Decoder := fun input =>
  match input.tokens with
  | .text (some s) :: rest =>
    if s ∈ names then .ok (.text s, { input with tokens := rest }) else .error .unfitting
  | .openObject :: rest => do
    let (name, rest) ← text { input with tokens := rest }
    match name with
    | .text s =>
      if s ∈ names then
        let rest ← Input.colon rest
        let (_, rest) ← unit rest
        match rest.tokens with
        | .closeObject :: after => return (.text s, { rest with tokens := after })
        | _ => throw rest.punctuationFault
      else throw .unfitting
    | _ => throw .unfitting
  | [] =>
    match input.ending with
    | .cutText _ => .error input.mismatch
    | _ => .error input.punctuationFault
  | _ => .error .malformed

/-- Null, or a value. -/
def optional (item : Decoder) : Decoder := fun input =>
  match input.tokens with
  | .null :: rest => .ok (.null, { input with tokens := rest })
  | _ => item input

/-- The next item of an open array, or `none` behind its last one. -/
def nextItem (item : Decoder) (first : Bool) (input : Input) :
    Except Fault (Option Json × Input) := do
  match input.tokens, first with
  | .closeArray :: _, _ => return (none, input)
  | .comma :: rest, false =>
    let (v, rest) ← item { input with tokens := rest }
    return (some v, rest)
  | _, true =>
    let (v, rest) ← item input
    return (some v, rest)
  | _, false => throw input.punctuationFault

/-- The items of an open array; `fuel` bounds their number. -/
def items (item : Decoder) : Nat → Bool → Input → Except Fault (List Json × Input)
  | 0, _, _ => .error .malformed
  | fuel + 1, first, input => do
    let (next, rest) ← nextItem item first input
    match next with
    | none => return ([], rest)
    | some v =>
      let (more, rest) ← items item fuel false rest
      return (v :: more, rest)

/-- The end of an open array of which all wanted items are read. -/
def closeArray (input : Input) : Except Fault Input :=
  match input.tokens with
  | .closeArray :: rest => .ok { input with tokens := rest }
  | _ => .error input.punctuationFault

/-- A list of values of one type. -/
def list (item : Decoder) : Decoder := fun input =>
  match input.tokens with
  | .openArray :: rest => do
    let (vs, after) ← items item (rest.length + 1) true { input with tokens := rest }
    let after ← closeArray after
    return (.array vs, after)
  | _ => .error input.mismatch

/-- A field of a record. -/
structure Field where
  name : String
  decoder : Decoder
  /-- The field may be left out and is then null. -/
  mayBeAbsent : Bool

/-- The fields of a record that is written as an array. -/
def fieldItems : List Field → Bool → Input → Except Fault (List (String × Json) × Input)
  | [], _, input => .ok ([], input)
  | field :: fields, first, input => do
    let (next, rest) ← nextItem field.decoder first input
    match next with
    | some v =>
      let (more, rest) ← fieldItems fields false rest
      return ((field.name, v) :: more, rest)
    | none =>
      -- the array has ended before its fields
      if field.mayBeAbsent then
        let (more, rest) ← fieldItems fields first rest
        return ((field.name, .null) :: more, rest)
      else throw .unfitting

/-- The members of an object that name fields, in the order of the text. A second member of one
name does not fit; members that name no field are passed over. -/
def members (fields : List Field) :
    Nat → Bool → List (String × Json) → Input → Except Fault (List (String × Json) × Input)
  | 0, _, _, _ => .error .malformed
  | fuel + 1, first, seen, input => do
    let name ← match input.tokens, first with
      | .closeObject :: _, _ => pure none
      | .comma :: .text (some name) :: rest, false => pure (some (name, rest))
      | .comma :: rest, false => throw (Input.nameFault { input with tokens := rest })
      | .text (some name) :: rest, true => pure (some (name, rest))
      | _, true => throw input.nameFault
      | _, false => throw input.punctuationFault
    match name with
    | none => return (seen, input)
    | some (name, rest) =>
      let rest : Input := { input with tokens := rest }
      match fields.find? (·.name == name) with
      | none =>
        let rest ← rest.colon
        let rest ← rest.skip
        members fields fuel false seen rest
      | some field =>
        if (seen.lookup name).isSome then throw .unfitting
        let rest ← rest.colon
        let (v, rest) ← field.decoder rest
        members fields fuel false (seen ++ [(name, v)]) rest

/-- The fields in their order, given the members that were there. -/
def arrange (fields : List Field) (seen : List (String × Json)) :
    Except Fault (List (String × Json)) :=
  fields.mapM fun field =>
    match seen.lookup field.name with
    | some v => .ok (field.name, v)
    | none => if field.mayBeAbsent then .ok (field.name, .null) else .error .unfitting

/-- A record: an object with its fields, or an array of them in order. -/
def record (fields : List Field) : Decoder := fun input =>
  match input.tokens with
  | .openArray :: rest => do
    let (vs, after) ← fieldItems fields true { input with tokens := rest }
    let after ← closeArray after
    return (.object vs, after)
  | .openObject :: rest => do
    let (seen, after) ← members fields (rest.length + 1) true [] { input with tokens := rest }
    let vs ← arrange fields seen
    return (.object vs, { after with tokens := after.tokens.drop 1 })
  | _ => .error input.mismatch

/-- Decodes a whole body. -/
def body (decoder : Decoder) (bytes : Bytes) : Except Fault Json := do
  let (v, rest) ← decoder (Input.ofBytes bytes)
  rest.finish
  return v

/-- Decodes a value that is there already; whatever is wrong with it, it does not fit. -/
def given (decoder : Decoder) (tokens : List Token) : Except Fault Json :=
  match decoder ⟨tokens, .complete⟩ with
  | .ok (v, _) => .ok v
  | .error _ => .error .unfitting

end Decoder

end ServiceCall.Json
