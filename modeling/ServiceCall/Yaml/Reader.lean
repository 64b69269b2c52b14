import ServiceCall.Yaml.Lexer
import ServiceCall.Yaml.Value

/-!
# From tokens to values

A value is a scalar, a collection or an alias of an earlier value, with an anchor and a tag before
it. Where a value is missing it is null.
-/

namespace ServiceCall.Yaml

/-- What is left to read, with the anchors that were met. -/
structure Reader where
  tokens : List Token
  /-- The anchors with their numbers, the last first. -/
  anchors : List (String × Nat) := []
  /-- The values that are complete, by the numbers of their anchors. -/
  values : List (Nat × Value) := []
  /-- What handles of tags stand for. -/
  handles : List (String × String) := []
deriving Repr

namespace Reader

/-- Behind the next token. -/
def next (r : Reader) : Reader := { r with tokens := r.tokens.drop 1 }

/-- The next token is one of these, or there is none. -/
def isAt (stops : List Token) (r : Reader) : Bool :=
  match r.tokens with
  | [] => false
  | t :: _ => stops.contains t

/-- A new anchor, and its number. -/
def register (name : String) (r : Reader) : Nat × Reader :=
  let n := r.anchors.length
  (n, { r with anchors := (name, n) :: r.anchors })

/-- A value with its anchor, if it has one. -/
def complete (anchor : Option Nat) (v : Value) (r : Reader) : Value × Reader :=
  match anchor with
  | some n => (v, { r with values := (n, v) :: r.values })
  | none => (v, r)

/-- The value of an alias. Inside its own value an alias stands for nothing. -/
def alias? (name : String) (r : Reader) : Option (Value × Reader) :=
  (r.anchors.lookup name).map fun n => ((r.values.lookup n).getD .unfit, r)

/-- A tag in its full form. A named handle has to be declared. -/
def resolve? (handle suffix : String) (r : Reader) : Option Value.Tag :=
  match r.handles.lookup (if handle == "" && suffix != "!" then "\x00" else handle) with
  | some full => some (full, suffix)
  | none =>
    if handle == "!!" then some (Value.standardTags, suffix)
    else if 2 ≤ handle.length && handle.endsWith "!" then none
    else some (handle, suffix)

/-- An anchor and a tag in any order, and what is behind them. -/
def properties? (r : Reader) : Option (Option Nat × Option Value.Tag × Reader) :=
  match r.tokens with
  | .anchor name :: .tag handle suffix :: _ =>
    let (n, r) := (r.next).next.register name
    (r.resolve? handle suffix).map fun t => (some n, some t, r)
  | .anchor name :: _ =>
    let (n, r) := r.next.register name
    some (some n, none, r)
  | .tag handle suffix :: .anchor name :: _ =>
    let (n, r) := (r.next).next.register name
    (r.resolve? handle suffix).map fun t => (some n, some t, r)
  | .tag handle suffix :: _ =>
    (r.resolve? handle suffix).map fun t => (none, some t, r.next)
  | _ => some (none, none, r)

mutual

/-- A value. In a block collection it may be one itself, and in a block mapping also a block sequence
without an indentation of its own. -/
def value? : Nat → Bool → Bool → Reader → Option (Value × Reader)
  | 0, _, _, _ => none
  | steps + 1, block, indentless, r =>
    match r.tokens with
    | .alias name :: _ => (r.alias? name).map fun (v, r) => (v, r.next)
    | _ =>
      match r.properties? with
      | none => none
      | some (anchor, tag, r) =>
        let collected (make : List Value → Option Value) (read : Option (List Value × Reader)) :=
          read.bind fun (vs, r) => (make vs).map fun v => r.complete anchor v
        let list (vs : List Value) : Option Value := some (.list vs)
        let map (vs : List Value) : Option Value := (Value.pairs? .unfit [] vs).map .map
        match r.tokens with
        | .scalar plain s :: _ => some (r.next.complete anchor (Value.ofScalar plain tag s))
        | .flowSequence :: _ => collected list (flowItems? steps true r.next)
        | .flowMapping :: _ => collected map (flowPairs? steps true r.next)
        -- blocks only where they may stand; a sequence may stand at the column of its key
        | .blockEntry :: _ =>
          if indentless then collected list (plainItems? steps r) else missing anchor tag r
        | .blockSequence :: _ =>
          if block then collected list (blockItems? steps r.next) else missing anchor tag r
        | .blockMapping :: _ =>
          if block then collected map (blockPairs? steps r.next) else missing anchor tag r
        | _ => missing anchor tag r
where
  /-- An anchor or a tag without a value behind it belongs to an empty scalar. -/
  missing (anchor : Option Nat) (tag : Option Value.Tag) (r : Reader) : Option (Value × Reader) :=
    if anchor.isSome || tag.isSome then some (r.complete anchor (Value.ofScalar true tag "")) else none

/-- Keys and values of a block mapping in turn. -/
def blockPairs? : Nat → Reader → Option (List Value × Reader)
  | 0, _ => none
  | steps + 1, r =>
    let entry (key : Value) (r : Reader) : Option (List Value × Reader) :=
      match r.tokens with
      | .value :: _ =>
        let r := r.next
        (if r.isAt [.key, .value, .blockEnd] then some (.null, r) else value? steps true true r).bind
          fun (v, r) => (blockPairs? steps r).map fun (vs, r) => (key :: v :: vs, r)
      | _ => (blockPairs? steps r).map fun (vs, r) => (key :: .null :: vs, r)
    match r.tokens with
    | .key :: _ =>
      let r := r.next
      if r.isAt [.key, .value, .blockEnd] then entry .null r
      else (value? steps true true r).bind fun (k, r) => entry k r
    | .value :: _ => entry .null r
    | .blockEnd :: _ => some ([], r.next)
    | _ => none

/-- Items of a block sequence. -/
def blockItems? : Nat → Reader → Option (List Value × Reader)
  | 0, _ => none
  | steps + 1, r =>
    match r.tokens with
    | .blockEnd :: _ => some ([], r.next)
    | .blockEntry :: _ =>
      let r := r.next
      (if r.isAt [.blockEntry, .blockEnd] then some (.null, r) else value? steps true false r).bind
        fun (v, r) => (blockItems? steps r).map fun (vs, r) => (v :: vs, r)
    | _ => none

/-- Items of a block sequence without an indentation of its own. -/
def plainItems? : Nat → Reader → Option (List Value × Reader)
  | 0, _ => none
  | steps + 1, r =>
    match r.tokens with
    | .blockEntry :: _ =>
      let r := r.next
      (if r.isAt [.blockEntry, .key, .value, .blockEnd] then some (.null, r)
        else value? steps true false r).bind
        fun (v, r) => (plainItems? steps r).map fun (vs, r) => (v :: vs, r)
    | _ => some ([], r)

/-- Items of a flow sequence; all but the first have a comma before them. -/
def flowItems? : Nat → Bool → Reader → Option (List Value × Reader)
  | 0, _, _ => none
  | steps + 1, first, r =>
    let item (r : Reader) : Option (List Value × Reader) :=
      match r.tokens with
      | .flowSequenceEnd :: _ => some ([], r.next)
      -- a pair among the items is a mapping of its own
      | .key :: _ =>
        (pair? steps r.next).bind fun (v, r) =>
          (flowItems? steps false r).map fun (vs, r) => (v :: vs, r)
      | _ =>
        (value? steps false false r).bind fun (v, r) =>
          (flowItems? steps false r).map fun (vs, r) => (v :: vs, r)
    match r.tokens with
    | .flowSequenceEnd :: _ => some ([], r.next)
    | .flowEntry :: _ => if first then item r else item r.next
    | _ => if first then item r else none

/-- A single pair in a flow sequence, behind its mark. -/
def pair? : Nat → Reader → Option (Value × Reader)
  | 0, _ => none
  | steps + 1, r =>
    let value (key : Value) (r : Reader) : Option (Value × Reader) :=
      match r.tokens with
      | .value :: _ =>
        let r := r.next
        (if r.isAt [.flowEntry, .flowSequenceEnd] then some (.null, r)
          else value? steps false false r).map fun (v, r) => (.map [(key, v)], r)
      | _ => some (.map [(key, .null)], r)
    if r.isAt [.value, .flowEntry, .flowSequenceEnd] then value .null r.next
    else (value? steps false false r).bind fun (k, r) => value k r

/-- Keys and values of a flow mapping in turn; all pairs but the first have a comma before them. -/
def flowPairs? : Nat → Bool → Reader → Option (List Value × Reader)
  | 0, _, _ => none
  | steps + 1, first, r =>
    let rest (key v : Value) (r : Reader) : Option (List Value × Reader) :=
      (flowPairs? steps false r).map fun (vs, r) => (key :: v :: vs, r)
    let value (key : Value) (r : Reader) : Option (List Value × Reader) :=
      match r.tokens with
      | .value :: _ =>
        let r := r.next
        if r.isAt [.flowEntry, .flowMappingEnd] then rest key .null r
        else (value? steps false false r).bind fun (v, r) => rest key v r
      | _ => rest key .null r
    let pair (r : Reader) : Option (List Value × Reader) :=
      match r.tokens with
      | .key :: _ =>
        let r := r.next
        if r.isAt [.value, .flowEntry, .flowMappingEnd] then value .null r
        else (value? steps false false r).bind fun (k, r) => value k r
      | .value :: _ => value .null r
      | .flowMappingEnd :: _ => some ([], r.next)
      | _ => (value? steps false false r).bind fun (k, r) => rest k .null r
    match r.tokens with
    | .flowMappingEnd :: _ => some ([], r.next)
    | .flowEntry :: _ => if first then pair r else pair r.next
    | _ => if first then pair r else none

end

/-- Reads the directives before a document: one version, and of the handles the last. -/
def directives? : Bool → List (String × String) → List Token → Option (List (String × String) × List Token)
  | seen, _, .versionDirective :: rest => if seen then none else directives? true [] rest
  | seen, _, .tagDirective handle full :: rest => directives? seen [(handle, full)] rest
  | _, handles, rest => some (handles, rest)

/-- Behind the marks that end documents. -/
def skipEnds : List Token → List Token
  | .documentEnd :: rest => skipEnds rest
  | tokens => tokens

/-- The value of a document behind its first line. -/
def content? (explicit : Bool) (r : Reader) : Option (Value × Reader) :=
  let isEmpty := match r.tokens with
    | [] => true
    | .documentStart :: _ | .documentEnd :: _ | .versionDirective :: _ | .tagDirective _ _ :: _ => true
    | _ => false
  if explicit && isEmpty then some (.null, r)
  else value? (4 * r.tokens.length + 4) true false r

/-- The value of the only document; an empty text holds none. -/
def document? (tokens : List Token) : Option (Option Value) := do
  let tokens := skipEnds tokens
  if tokens.isEmpty then return none
  else
    let (explicit, r) ←
      match tokens with
      | .documentStart :: _ | .versionDirective :: _ | .tagDirective _ _ :: _ =>
        match directives? false [] tokens with
        | some (handles, .documentStart :: rest) =>
          some (true, ({ tokens := rest, handles } : Reader))
        | _ => none
      | _ => some (false, { tokens })
    let (v, r) ← content? explicit r
    if (skipEnds r.tokens).isEmpty then return some v else none

end Reader

/-- The table that a YAML text holds, if it holds one document and that is a map. A text without a
document holds an empty table. -/
def read? (text : String) : Option Node := do
  let tokens ← tokens? text
  match ← Reader.document? tokens with
  | none => return .table []
  | some v =>
    match ← v.toNode? with
    | .table entries => return .table entries
    | _ => none

end ServiceCall.Yaml
