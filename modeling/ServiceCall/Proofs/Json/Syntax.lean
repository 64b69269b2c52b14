import ServiceCall.Json.Reader
import ServiceCall.Proofs.Except

/-!
# The syntax of a document

Which tokens stand for which value, as a grammar. The reader takes just these tokens, and of the
numbers only those in range; it counts the containers that are open, the grammar those that still may
be opened.
-/

namespace ServiceCall.Json

/-- What tokens can stand for: a value, items with commas between them, or members so. -/
inductive Phrase where
  | value (v : Json)
  | items (vs : List Json)
  | members (ms : List (String × Json))

/-- The tokens stand for the phrase, and at most `room` of its containers stand in each other. Of two
members of one name the later value counts, at the place of the earlier one. -/
inductive Derives : Nat → List Token → Phrase → Prop where
  | null {room : Nat} : Derives room [.null] (.value .null)
  | bool {room : Nat} (b : Bool) : Derives room [.bool b] (.value (.bool b))
  | number {room : Nat} {n : Numeral} {x : Number} (inRange : n.number? = some x) :
      Derives room [.number n] (.value (.number x))
  | text {room : Nat} (s : String) : Derives room [.text (some s)] (.value (.text s))
  | emptyArray {room : Nat} : Derives (room + 1) [.openArray, .closeArray] (.value (.array []))
  | array {room : Nat} {ts : List Token} {vs : List Json} (items : Derives room ts (.items vs)) :
      Derives (room + 1) (.openArray :: ts ++ [.closeArray]) (.value (.array vs))
  | emptyObject {room : Nat} : Derives (room + 1) [.openObject, .closeObject] (.value (.object []))
  | object {room : Nat} {ts : List Token} {ms : List (String × Json)}
      (members : Derives room ts (.members ms)) :
      Derives (room + 1) (.openObject :: ts ++ [.closeObject]) (.value (.object ms))
  | firstItem {room : Nat} {ts : List Token} {v : Json} (value : Derives room ts (.value v)) :
      Derives room ts (.items [v])
  | nextItem {room : Nat} {ts us : List Token} {vs : List Json} {v : Json}
      (items : Derives room ts (.items vs)) (value : Derives room us (.value v)) :
      Derives room (ts ++ .comma :: us) (.items (vs ++ [v]))
  | firstMember {room : Nat} {ts : List Token} {v : Json} (name : String)
      (value : Derives room ts (.value v)) :
      Derives room (.text (some name) :: .colon :: ts) (.members [(name, v)])
  | nextMember {room : Nat} {ts us : List Token} {ms : List (String × Json)} {v : Json}
      (members : Derives room ts (.members ms)) (name : String) (value : Derives room us (.value v)) :
      Derives room (ts ++ .comma :: .text (some name) :: .colon :: us) (.members (setMember name v ms))

/-- No value and no item starts with the end of an array. -/
theorem Derives.head {room : Nat} {ts : List Token} {p : Phrase} (h : Derives room ts p) :
    (∀ ms, p ≠ .members ms) → ∃ t rest, ts = t :: rest ∧ t ≠ .closeArray := by
  induction h with
  | null | bool b | number inRange | text s | emptyArray | array items ih | emptyObject
    | object members ih => exact fun _ => ⟨_, _, rfl, nofun⟩
  | firstItem value ih => exact fun _ => ih nofun
  | nextItem items value ih _ =>
    intro _
    obtain ⟨t, rest, rfl, ht⟩ := ih nofun
    exact ⟨t, _, rfl, ht⟩
  | firstMember name value ih | nextMember members name value ih => exact fun h => absurd rfl (h _)

namespace Reader

variable {ending : Ending} {outer : List Frame} {ts us : List Token}

/-! ### What is derived is read -/

theorem run_cons_of_undone {s : State} (hs : ∀ v, s.phase ≠ .done v) (t : Token)
    (rest : List Token) : run .strict ending s (t :: rest)
      = (step .strict s t).bind fun next => run .strict ending next rest := by
  obtain ⟨outer, phase⟩ := s
  cases phase with
  | done v => exact absurd rfl (hs v)
  | value | firstItem | item items | key ms first | name ms name | member ms => rfl

/-- A token that fits moves the reader on. -/
theorem run_cons {s next : State} {t : Token} (h : step .strict s t = .ok next)
    (rest : List Token) : run .strict ending s (t :: rest) = run .strict ending next rest := by
  have hundone : ∀ v, s.phase ≠ .done v := by
    obtain ⟨outer, phase⟩ := s
    rintro v rfl
    cases h
  rw [run_cons_of_undone hundone, h]
  rfl

/-- Tokens in front of others are read as a value, where a value is due. -/
def Reads (ending : Ending) (outer : List Frame) (ts : List Token) (v : Json) : Prop :=
  ∀ rest, run .strict ending ⟨outer, .value⟩ (ts ++ rest) = run .strict ending (complete outer v) rest

/-- The first item of an array starts as any other value. -/
theorem step_firstItem {t : Token} (ht : t ≠ .closeArray) :
    step .strict ⟨outer, .firstItem⟩ t = step .strict ⟨.array [] :: outer, .value⟩ t := by
  cases t with
  | closeArray => exact absurd rfl ht
  | openArray | openObject | closeObject | comma | colon | null | bool b | number n
    | text content => rfl

theorem run_firstItem {t : Token} (ht : t ≠ .closeArray) (rest : List Token) :
    run .strict ending ⟨outer, .firstItem⟩ (t :: rest)
      = run .strict ending ⟨.array [] :: outer, .value⟩ (t :: rest) :=
  congrArg (fun r => r.bind fun next => run .strict ending next rest) (step_firstItem ht)

/-- Tokens are read as a phrase by a reader that still may open `room` containers. -/
def Takes (ending : Ending) (room : Nat) (ts : List Token) : Phrase → Prop
  | .value v => ∀ outer, outer.length + room ≤ maxDepth → Reads ending outer ts v
  | .items vs => ∀ outer, outer.length + 1 + room ≤ maxDepth → ∀ rest,
      run .strict ending ⟨outer, .firstItem⟩ (ts ++ rest)
        = run .strict ending ⟨outer, .item vs.reverse⟩ rest
  | .members ms => ∀ outer, outer.length + 1 + room ≤ maxDepth → ∀ rest,
      run .strict ending ⟨outer, .key [] true⟩ (ts ++ rest)
        = run .strict ending ⟨outer, .member ms⟩ rest

/-- The name of a member, its colon and its value. -/
theorem run_named {v : Json} {name : String} {ms : List (String × Json)} {first : Bool}
    (hv : Reads ending (.object ms name :: outer) ts v) (rest : List Token) :
    run .strict ending ⟨outer, .key ms first⟩ (.text (some name) :: .colon :: (ts ++ rest))
      = run .strict ending ⟨outer, .member (setMember name v ms)⟩ rest := by
  have hkey : step .strict ⟨outer, .key ms first⟩ (.text (some name)) = .ok ⟨outer, .name ms name⟩ :=
    rfl
  have hcolon : step .strict ⟨outer, .name ms name⟩ .colon
      = .ok ⟨.object ms name :: outer, .value⟩ := rfl
  rw [run_cons hkey, run_cons hcolon, hv, complete]

theorem step_openArray (h : outer.length < maxDepth) :
    step .strict ⟨outer, .value⟩ .openArray = .ok ⟨outer, .firstItem⟩ :=
  if_pos (.inr h)

theorem step_openObject (h : outer.length < maxDepth) :
    step .strict ⟨outer, .value⟩ .openObject = .ok ⟨outer, .key [] true⟩ :=
  if_pos (.inr h)

/-- What is derived is read. The room shrinks by one where the reader opens a container, so it never
has more of them open than it may. -/
theorem takes_of_derives {room : Nat} {p : Phrase} (h : Derives room ts p) :
    Takes ending room ts p := by
  -- a phrase is read wherever it stands: containers around it and tokens behind it are general
  induction h with
  | null | bool b | text s => exact fun outer _ => run_cons rfl
  | number inRange =>
    intro outer _
    refine run_cons ?_
    simp only [step, beginValue, inRange]
  | emptyArray =>
    intro outer hroom rest
    exact (run_cons (step_openArray (by omega)) _).trans (run_cons rfl rest)
  | @array room ts vs items ih =>
    intro outer hroom rest
    have hclose : step .strict ⟨outer, .item vs.reverse⟩ .closeArray
        = .ok (complete outer (.array vs.reverse.reverse)) := rfl
    rw [List.cons_append, List.cons_append, run_cons (step_openArray (by omega)), List.append_assoc,
      ih outer (by omega), List.singleton_append, run_cons hclose, List.reverse_reverse]
  | emptyObject =>
    intro outer hroom rest
    exact (run_cons (step_openObject (by omega)) _).trans (run_cons rfl rest)
  | @object room ts ms members ih =>
    intro outer hroom rest
    have hclose : step .strict ⟨outer, .member ms⟩ .closeObject
        = .ok (complete outer (.object ms)) := rfl
    rw [List.cons_append, List.cons_append, run_cons (step_openObject (by omega)), List.append_assoc,
      ih outer (by omega), List.singleton_append, run_cons hclose]
  | @firstItem room ts v value ih =>
    intro outer hroom rest
    -- the token behind the bracket opens a value, so it is not taken for the bracket that closes
    obtain ⟨t, tail, hts, ht⟩ := Derives.head value nofun
    have hv := ih (.array [] :: outer) (by rw [List.length_cons]; omega)
    rw [hts, List.cons_append, run_firstItem ht, ← List.cons_append, ← hts, hv]
    rfl
  | @nextItem room ts us vs v items value ihitems ihvalue =>
    intro outer hroom rest
    have hcomma : step .strict ⟨outer, .item vs.reverse⟩ .comma
        = .ok ⟨.array vs.reverse :: outer, .value⟩ := rfl
    have hv := ihvalue (.array vs.reverse :: outer) (by rw [List.length_cons]; omega)
    rw [List.append_assoc, ihitems outer hroom, List.cons_append, run_cons hcomma, hv, complete,
      List.reverse_append]
    rfl
  | firstMember name value ih =>
    intro outer hroom rest
    exact run_named (ih (.object [] name :: outer) (by rw [List.length_cons]; omega)) rest
  | @nextMember room ts us ms v members name value ihmembers ihvalue =>
    intro outer hroom rest
    have hcomma : step .strict ⟨outer, .member ms⟩ .comma = .ok ⟨outer, .key ms false⟩ := rfl
    have hv := ihvalue (.object ms name :: outer) (by rw [List.length_cons]; omega)
    rw [List.append_assoc, ihmembers outer hroom, List.cons_append, run_cons hcomma]
    exact run_named hv rest

/-! ### What is read is derived -/

/-- The containers that a reader may still open. -/
def room (outer : List Frame) : Nat := maxDepth - outer.length

/-- What stands in an array before an item. -/
inductive ItemsBefore (room : Nat) : List Token → List Json → Prop where
  | nothing : ItemsBefore room [] []
  | comma {ts : List Token} {vs : List Json} (items : Derives room ts (.items vs)) :
      ItemsBefore room (ts ++ [.comma]) vs

/-- What stands in an object before the name of a member. -/
inductive MembersBefore (room : Nat) : Bool → List Token → List (String × Json) → Prop where
  | nothing : MembersBefore room true [] []
  | comma {ts : List Token} {ms : List (String × Json)} (members : Derives room ts (.members ms)) :
      MembersBefore room false (ts ++ [.comma]) ms

theorem ItemsBefore.concat {room : Nat} {vs : List Json} {v : Json} (h : ItemsBefore room ts vs)
    (value : Derives room us (.value v)) : Derives room (ts ++ us) (.items (vs ++ [v])) := by
  cases h with
  | nothing => exact .firstItem value
  | comma items =>
    rw [List.append_assoc]
    exact .nextItem items value

theorem MembersBefore.concat {room : Nat} {first : Bool} {ms : List (String × Json)} {v : Json}
    (h : MembersBefore room first ts ms) (name : String) (value : Derives room us (.value v)) :
    Derives room (ts ++ .text (some name) :: .colon :: us) (.members (setMember name v ms)) := by
  cases h with
  | nothing => exact .firstMember name value
  | comma members =>
    rw [List.append_assoc]
    exact .nextMember members name value

/-- The tokens behind which a value is due inside the containers. -/
inductive Opened : List Frame → List Token → Prop where
  | document : Opened [] []
  | array {outer : List Frame} {ts us : List Token} {vs : List Json} (outside : Opened outer ts)
      (space : outer.length < maxDepth) (before : ItemsBefore (room outer - 1) us vs) :
      Opened (.array vs.reverse :: outer) (ts ++ .openArray :: us)
  | object {outer : List Frame} {ts us : List Token} {ms : List (String × Json)} {first : Bool}
      (outside : Opened outer ts) (space : outer.length < maxDepth)
      (before : MembersBefore (room outer - 1) first us ms) (name : String) :
      Opened (.object ms name :: outer) (ts ++ .openObject :: (us ++ [.text (some name), .colon]))

/-- The tokens behind which the reader is in a state. -/
inductive Reached : State → List Token → Prop where
  | value {outer : List Frame} {ts : List Token} (outside : Opened outer ts) :
      Reached ⟨outer, .value⟩ ts
  | firstItem {outer : List Frame} {ts : List Token} (outside : Opened outer ts)
      (space : outer.length < maxDepth) : Reached ⟨outer, .firstItem⟩ (ts ++ [.openArray])
  | item {outer : List Frame} {ts us : List Token} {vs : List Json} (outside : Opened outer ts)
      (space : outer.length < maxDepth) (items : Derives (room outer - 1) us (.items vs)) :
      Reached ⟨outer, .item vs.reverse⟩ (ts ++ .openArray :: us)
  | key {outer : List Frame} {ts us : List Token} {ms : List (String × Json)} {first : Bool}
      (outside : Opened outer ts) (space : outer.length < maxDepth)
      (before : MembersBefore (room outer - 1) first us ms) :
      Reached ⟨outer, .key ms first⟩ (ts ++ .openObject :: us)
  | name {outer : List Frame} {ts us : List Token} {ms : List (String × Json)} {first : Bool}
      (outside : Opened outer ts) (space : outer.length < maxDepth)
      (before : MembersBefore (room outer - 1) first us ms) (name : String) :
      Reached ⟨outer, .name ms name⟩ (ts ++ .openObject :: (us ++ [.text (some name)]))
  | member {outer : List Frame} {ts us : List Token} {ms : List (String × Json)}
      (outside : Opened outer ts) (space : outer.length < maxDepth)
      (members : Derives (room outer - 1) us (.members ms)) :
      Reached ⟨outer, .member ms⟩ (ts ++ .openObject :: us)
  | done {ts : List Token} {v : Json} (value : Derives maxDepth ts (.value v)) :
      Reached ⟨[], .done v⟩ ts

/-- A value takes its place in the innermost container. -/
theorem reached_complete {v : Json} (houtside : Opened outer ts)
    (hv : Derives (room outer) us (.value v)) : Reached (complete outer v) (ts ++ us) := by
  cases houtside with
  | document => exact .done hv
  | @array outer ts before vs houtside hspace hbefore =>
    have hitems := hbefore.concat hv
    rw [complete, List.append_assoc, List.cons_append, ← List.reverse_concat]
    exact .item houtside hspace hitems
  | @object outer ts before ms first houtside hspace hbefore name =>
    have hmembers := hbefore.concat name hv
    rw [complete, List.append_assoc, List.cons_append, List.append_assoc]
    exact .member houtside hspace hmembers

/-- Inside a container one container fewer may be opened. -/
theorem reached_container {v : Json} (houtside : Opened outer ts) (hspace : outer.length < maxDepth)
    (hv : Derives (room outer - 1 + 1) us (.value v)) : Reached (complete outer v) (ts ++ us) := by
  refine reached_complete houtside ?_
  have hroom : room outer - 1 + 1 = room outer := by
    rw [room]
    omega
  rwa [hroom] at hv

/-- The first token of a value is its only one, or opens it. -/
theorem reached_beginValue {t : Token} {next : State} (houtside : Opened outer ts)
    (h : beginValue .strict outer t = .ok next) : Reached next (ts ++ [t]) := by
  cases t with
  | null =>
    cases h
    exact reached_complete houtside .null
  | bool b =>
    cases h
    exact reached_complete houtside (.bool b)
  | number n =>
    cases hn : n.number? with
    | none => simp [beginValue, hn] at h
    | some x =>
      simp only [beginValue, hn, Except.ok.injEq] at h
      rw [← h]
      exact reached_complete houtside (.number hn)
  | text content =>
    cases content with
    | none => cases h
    | some s =>
      cases h
      exact reached_complete houtside (.text s)
  | openArray =>
    simp only [beginValue, reduceCtorEq, false_or] at h
    split at h
    · next hspace =>
      cases h
      exact .firstItem houtside hspace
    · cases h
  | openObject =>
    simp only [beginValue, reduceCtorEq, false_or] at h
    split at h
    · next hspace =>
      cases h
      exact .key houtside hspace .nothing
    · cases h
  | closeArray | closeObject | comma | colon => cases h

/-- A token that the reader takes belongs to what it has read. -/
theorem reached_step {s next : State} {t : Token} (hs : Reached s ts)
    (h : step .strict s t = .ok next) : Reached next (ts ++ [t]) := by
  cases hs with
  | value houtside => exact reached_beginValue houtside h
  | @firstItem outer ts houtside hspace =>
    by_cases ht : t = .closeArray
    · subst ht
      cases h
      rw [List.append_assoc]
      exact reached_container houtside hspace .emptyArray
    · rw [step_firstItem ht] at h
      exact reached_beginValue (.array houtside hspace .nothing) h
  | @item outer ts us vs houtside hspace hitems =>
    cases t with
    | closeArray =>
      cases h
      rw [List.append_assoc, List.reverse_reverse]
      exact reached_container houtside hspace (.array hitems)
    | comma =>
      cases h
      rw [List.append_assoc]
      exact .value (.array houtside hspace (.comma hitems))
    | openArray | openObject | closeObject | colon | null | bool | number | text => cases h
  | @key outer ts us ms first houtside hspace hbefore =>
    cases t with
    | closeObject =>
      cases hbefore with
      -- behind a comma a name must follow
      | comma _ => cases h
      | nothing =>
        cases h
        rw [List.append_assoc]
        exact reached_container houtside hspace .emptyObject
    | text content =>
      cases content with
      | none => cases h
      | some name =>
        cases h
        rw [List.append_assoc]
        exact .name houtside hspace hbefore name
    | openArray | closeArray | openObject | comma | colon | null | bool | number => cases h
  | @name outer ts us ms first houtside hspace hbefore name =>
    cases t with
    | colon =>
      cases h
      rw [List.append_assoc, List.cons_append, List.append_assoc]
      exact .value (.object houtside hspace hbefore name)
    | openArray | closeArray | openObject | closeObject | comma | null | bool | number | text =>
      cases h
  | @member outer ts us ms houtside hspace hmembers =>
    cases t with
    | closeObject =>
      cases h
      rw [List.append_assoc]
      exact reached_container houtside hspace (.object hmembers)
    | comma =>
      cases h
      rw [List.append_assoc]
      exact .key houtside hspace (.comma hmembers)
    | openArray | closeArray | openObject | colon | null | bool | number | text => cases h
  | done hv => cases h

/-- What was read when a value is complete is the value. -/
theorem derives_of_run {s : State} {v : Json} {rest : List Token} (hs : Reached s ts)
    (h : run .strict ending s us = .ok (v, rest)) :
    ∃ more, us = more ++ rest ∧ Derives maxDepth (ts ++ more) (.value v) := by
  -- on the tokens to come; where the reader stands and what it has read are general
  induction us generalizing s ts with
  | nil =>
    cases hs with
    | done hv =>
      cases h
      exact ⟨[], rfl, by rwa [List.append_nil]⟩
    | value | firstItem | item | key | name | member => cases h
  | cons t us ih =>
    by_cases hdone : ∃ w, s.phase = .done w
    · cases hs with
      | done hv =>
        cases h
        exact ⟨[], rfl, by rwa [List.append_nil]⟩
      | value | firstItem | item | key | name | member =>
        obtain ⟨w, hw⟩ := hdone
        cases hw
    · rw [run_cons_of_undone fun w hw => hdone ⟨w, hw⟩] at h
      obtain ⟨next, hnext, hrun⟩ := bind_eq_ok.mp h
      obtain ⟨more, rfl, hv⟩ := ih (reached_step hs hnext) hrun
      exact ⟨t :: more, rfl, by rwa [List.append_assoc] at hv⟩

/-- The reader takes all tokens as a value just if they stand for it. -/
theorem run_eq_ok_iff {v : Json} :
    run .strict ending {} ts = .ok (v, []) ↔ Derives maxDepth ts (.value v) := by
  constructor
  · intro h
    obtain ⟨more, rfl, hv⟩ := derives_of_run (.value .document) h
    rwa [List.append_nil]
  · intro h
    have htakes : Takes ending maxDepth ts (.value v) := takes_of_derives h
    have hread := htakes [] (Nat.le_of_eq (Nat.zero_add _)) []
    rw [List.append_nil] at hread
    exact hread.trans rfl

end Reader

end ServiceCall.Json
