import ServiceCall.Json.Printer
import ServiceCall.Proofs.Json.Document
import ServiceCall.Text.Digits

/-!
# Printed values

The compact text of a value without fractions is a document of the value, as long as no more containers
stand in each other than a reader may have open.
-/

namespace ServiceCall.Json

/-- A value without fractions, and without an object that names a member twice. -/
inductive Exact : Json → Prop
  | null : Exact .null
  | bool (b : Bool) : Exact (.bool b)
  | whole (n : Whole) : Exact (.number (.whole n))
  | text (s : String) : Exact (.text s)
  | array (items : List Json) : (∀ v ∈ items, Exact v) → Exact (.array items)
  | object (members : List (String × Json)) : (members.map Prod.fst).Nodup →
    (∀ m ∈ members, Exact m.2) → Exact (.object members)

/-- The parts of an integer as it is written. -/
def numeral (i : Int) : Numeral :=
  { negative := i < 0, whole := DecimalDigits.characters i.natAbs }

/-- The token of a number that has no fraction. -/
def numberTokens : Number → List Token
  | .whole n => [.number (numeral n.value)]
  | .real _ => []

mutual

/-- The tokens of a value without fractions. -/
def tokens : Json → List Token
  | .null => [.null]
  | .bool b => [.bool b]
  | .number n => numberTokens n
  | .text s => [.text (some s)]
  | .array [] => [.openArray, .closeArray]
  | .array (v :: rest) => .openArray :: (tokens v ++ moreItems rest)
  | .object [] => [.openObject, .closeObject]
  | .object ((name, v) :: rest) =>
    .openObject :: .text (some name) :: .colon :: (tokens v ++ moreMembers rest)

/-- The tokens of the items behind one, up to the end of the array. -/
def moreItems : List Json → List Token
  | [] => [.closeArray]
  | v :: rest => .comma :: (tokens v ++ moreItems rest)

/-- The tokens of the members behind one, up to the end of the object. -/
def moreMembers : List (String × Json) → List Token
  | [] => [.closeObject]
  | (name, v) :: rest => .comma :: .text (some name) :: .colon :: (tokens v ++ moreMembers rest)

end

mutual

/-- How many containers stand in each other. -/
def depth : Json → Nat
  | .array items => 1 + depthOfItems items
  | .object members => 1 + depthOfMembers members
  | _ => 0

/-- The depth of the deepest item. -/
def depthOfItems : List Json → Nat
  | [] => 0
  | v :: rest => max (depth v) (depthOfItems rest)

/-- The depth of the deepest member. -/
def depthOfMembers : List (String × Json) → Nat
  | [] => 0
  | (_, v) :: rest => max (depth v) (depthOfMembers rest)

end

theorem depth_le_depthOfItems {v : Json} {items : List Json} (h : v ∈ items) :
    depth v ≤ depthOfItems items := by
  induction items with
  | nil => cases h
  | cons w items ih =>
    rw [depthOfItems]
    rcases List.mem_cons.mp h with rfl | h
    · exact Nat.le_max_left _ _
    · exact Nat.le_trans (ih h) (Nat.le_max_right _ _)

theorem depth_le_depthOfMembers {m : String × Json} {members : List (String × Json)}
    (h : m ∈ members) : depth m.2 ≤ depthOfMembers members := by
  induction members with
  | nil => cases h
  | cons n members ih =>
    obtain ⟨name, w⟩ := n
    rw [depthOfMembers]
    rcases List.mem_cons.mp h with rfl | h
    · exact Nat.le_max_left _ _
    · exact Nat.le_trans (ih h) (Nat.le_max_right _ _)

/-! ### Integers -/

/-- Digits of a number that a word can hold are all taken. -/
theorem foldl_leading_characters {n : Nat} (hn : n ≤ Numeral.maxWord) :
    (DecimalDigits.characters n).foldl Numeral.Leading.push {} = { value := n } := by
  rw [DecimalDigits.characters]
  revert hn
  have hten : 1 < 10 := by decide
  have hvalue : ∀ d < 10, Decimal.digitValue (Nat.digitChar d) = d := by decide
  induction n using toDigits_induction hten with
  | digit d hd =>
    intro hn
    simp [Numeral.Leading.push, hvalue d hd, Nat.not_lt.mpr hn]
  | more n d _ hd ih =>
    intro hn
    rw [List.foldl_append, ih (by omega)]
    simp [Numeral.Leading.push, hvalue d hd, Nat.not_lt.mpr hn]

/-- An integer in range is read as itself. -/
theorem number?_numeral (n : Whole) : (numeral n.value).number? = some (.whole n) := by
  have hlow := n.low
  have hhigh := n.high
  have hword : n.value.natAbs ≤ Numeral.maxWord := by
    rw [Numeral.maxWord]
    omega
  have hwhole : Whole.ofInt? n.value = some n := by
    rw [Whole.ofInt?, dif_pos ⟨hlow, hhigh⟩]
  have hleading := foldl_leading_characters hword
  rw [Numeral.number?, numeral]
  dsimp only
  rw [hleading]
  by_cases hnegative : n.value < 0
  · have hne : n.value.natAbs ≠ 0 := by omega
    have habs : -(n.value.natAbs : Int) = n.value := by omega
    simp only [hnegative, decide_true, List.isEmpty_nil, beq_self_eq_true, Bool.and_true,
      Bool.true_and, if_true, beq_iff_eq, hne, if_false, habs, hwhole]
  · have habs : (n.value.natAbs : Int) = n.value := by omega
    simp only [hnegative, decide_false, List.isEmpty_nil, beq_self_eq_true, Bool.and_true,
      Bool.false_and, Bool.false_eq_true, if_true, if_false, habs, hwhole]

/-- The figures of an integer. -/
theorem figures_intText (i : Int) : Figures (intText i) (numeral i) := by
  have hwhole : WholePart (DecimalDigits.characters i.natAbs) := by
    have hdigits : ∀ c ∈ DecimalDigits.characters i.natAbs, c.isDigit = true :=
      fun c hc => Nat.isDigit_of_mem_toDigits (by decide) (by decide) hc
    rw [DecimalDigits.characters] at hdigits ⊢
    rcases Nat.eq_zero_or_pos i.natAbs with hzero | hpos
    · rw [hzero, Nat.toDigits_zero]
      exact .zero
    · obtain ⟨c, cs, hcs, hnonzero⟩ := exists_head_toDigits (show 1 < 10 by decide) hpos
      rw [hcs] at hdigits ⊢
      obtain ⟨hc, hmore⟩ := List.forall_mem_cons.mp hdigits
      exact .digits (.mk hc hmore) hnonzero
  have hfigures : ∀ {s negative}, Sign s negative →
      Figures (s ++ DecimalDigits.characters i.natAbs)
        { negative, whole := DecimalDigits.characters i.natAbs } := by
    intro s negative hsign
    have h := Figures.intro (.intro hsign hwhole .none) .none
    rwa [List.append_nil, List.append_nil] at h
  rw [intText, numeral]
  split
  · next hi =>
    rw [decide_eq_true hi]
    exact hfigures .minus
  · next hi =>
    rw [decide_eq_false hi]
    exact hfigures .none

/-! ### Texts -/

theorem hexValue?_hexDigit : ∀ n < 16, Lexer.hexValue? (Printer.hexDigit n) = some n := by decide

/-- The escape of a control is its code. -/
theorem code_of_control {c : Char} (hc : c.toNat < 32) :
    Code ['\\', 'u', '0', '0', Printer.hexDigit (c.toNat / 16), Printer.hexDigit (c.toNat % 16)]
      c.toNat := by
  have hzero : Lexer.hexValue? '0' = some 0 := rfl
  have hzeros : Hex ['0', '0'] 0 := (Hex.nil.concat hzero).concat hzero
  have hhigh := hzeros.concat (hexValue?_hexDigit (c.toNat / 16) (by omega))
  have hlow := hhigh.concat (hexValue?_hexDigit (c.toNat % 16) (by omega))
  have hvalue : 16 * (16 * 0 + c.toNat / 16) + c.toNat % 16 = c.toNat := by omega
  rw [hvalue] at hlow
  exact .mk hlow rfl

/-- Behind what stands for some characters, the characters stand for one more. -/
def Continues (qs cs : List Char) (c : Char) (us : List Char) : Prop :=
  Quotes (qs ++ us) (cs ++ [c])

/-- What is printed for a character between quotes stands for it. -/
theorem Quotes.escape {qs cs : List Char} (h : Quotes qs cs) (c : Char) :
    Continues qs cs c (Printer.escape c) := by
  have hshort : ∀ {letter c}, Lexer.shortEscape? letter = some c →
      Continues qs cs c ['\\', letter] := fun hletter => .short h hletter
  unfold Printer.escape
  by_cases hquote : c = '"' ∨ c = '\\'
  · rw [if_pos (by simpa using hquote)]
    rcases hquote with rfl | rfl <;> exact hshort rfl
  rw [if_neg (by simpa using hquote)]
  -- the control characters that have a letter of their own, in the order of the printer
  refine of_ite_char (Continues qs cs) (hshort rfl) fun _ => ?_
  refine of_ite_char (Continues qs cs) (hshort rfl) fun _ => ?_
  refine of_ite_char (Continues qs cs) (hshort rfl) fun _ => ?_
  refine of_ite_char (Continues qs cs) (hshort rfl) fun _ => ?_
  refine of_ite_char (Continues qs cs) (hshort rfl) fun _ => ?_
  split
  · next hcontrol =>
    have hquotes := Quotes.code h (code_of_control hcontrol) (.inl (by omega))
    rwa [Char.ofNat_toNat] at hquotes
  · next hcontrol =>
    rw [not_or] at hquote
    exact .plain h hquote.1 hquote.2 (Nat.not_lt.mp hcontrol)

theorem quotes_flatMap_escape (cs : List Char) : Quotes (cs.flatMap Printer.escape) cs := by
  induction cs using List.reverseRecOn with
  | nil => exact .nil
  | append_singleton cs c ih =>
    rw [List.flatMap_append, List.flatMap_singleton]
    exact ih.escape c

theorem lexeme_quoted (s : String) : Lexeme (Printer.quoted s) (.text (some s)) := by
  have h := Lexeme.text (quotes_flatMap_escape s.toList)
  rwa [String.ofList_toList] at h

/-! ### Spelling -/

variable {rest : List Char} {ts : List Token}

/-- What can follow a value: nothing, the next item or member, or the end of its container. -/
def Closes (rest : List Char) : Prop :=
  rest = [] ∨ ∃ c tail, rest = c :: tail ∧ (c = ',' ∨ c = ']' ∨ c = '}')

theorem closes_cons {c : Char} (h : c = ',' ∨ c = ']' ∨ c = '}') (tail : List Char) :
    Closes (c :: tail) :=
  .inr ⟨c, tail, rfl, h⟩

theorem Closes.stop (h : Closes rest) : ∀ c ∈ rest.head?, ¬ GoesOn c := by
  rcases h with rfl | ⟨c, tail, rfl, hc⟩
  · simp
  · rcases hc with rfl | rfl | rfl <;> simp [GoesOn]

/-- In front of anything that can follow, the text of the value spells its tokens. -/
def Prints (v : Json) : Prop :=
  ∀ {rest ts}, Closes rest → Spells rest ts → Spells (Printer.compact v ++ rest) (tokens v ++ ts)

theorem spells_items {v : Json} {items : List Json} (h : ∀ w ∈ v :: items, Prints w)
    (hrest : Spells rest ts) :
    Spells (Printer.compactItems (v :: items) ++ ']' :: rest) (tokens v ++ moreItems items ++ ts) := by
  induction items generalizing v with
  | nil =>
    rw [Printer.compactItems, moreItems, List.append_assoc]
    exact h v List.mem_cons_self (closes_cons (.inr (.inl rfl)) rest) (.lexeme .closeArray hrest)
  | cons w items ih =>
    obtain ⟨hv, hitems⟩ := List.forall_mem_cons.mp h
    have hmore := Spells.lexeme .comma (ih hitems)
    rw [Printer.compactItems, moreItems, List.append_assoc, List.append_assoc]
    exact hv (closes_cons (.inl rfl) _) hmore

theorem spells_name (name : String) (h : Spells rest ts) :
    Spells (Printer.quoted name ++ ':' :: rest) (.text (some name) :: .colon :: ts) :=
  .lexeme (lexeme_quoted name) (.lexeme .colon h)

theorem spells_members {name : String} {v : Json} {members : List (String × Json)}
    (h : ∀ m ∈ (name, v) :: members, Prints m.2) (hrest : Spells rest ts) :
    Spells (Printer.compactMembers ((name, v) :: members) ++ '}' :: rest)
      (.text (some name) :: .colon :: (tokens v ++ moreMembers members ++ ts)) := by
  induction members generalizing name v with
  | nil =>
    rw [Printer.compactMembers, moreMembers, List.append_assoc, List.append_assoc, List.cons_append]
    refine spells_name name ?_
    exact h _ List.mem_cons_self (closes_cons (.inr (.inr rfl)) rest) (.lexeme .closeObject hrest)
  | cons m members ih =>
    obtain ⟨next, w⟩ := m
    obtain ⟨hv, hmembers⟩ := List.forall_mem_cons.mp h
    have hmore := Spells.lexeme .comma (ih hmembers)
    rw [Printer.compactMembers, moreMembers, List.append_assoc, List.append_assoc, List.append_assoc]
    exact spells_name name (hv (closes_cons (.inl rfl) _) hmore)

/-- The compact text of a value without fractions spells the tokens of the value. -/
theorem prints_of_exact {v : Json} (hv : Exact v) : Prints v := by
  induction hv with
  | null => exact fun _ hrest => .lexeme .null hrest
  | bool b =>
    cases b with
    | true => exact fun _ hrest => .lexeme .true hrest
    | false => exact fun _ hrest => .lexeme .false hrest
  | whole n => exact fun hcloses hrest => .number (figures_intText n.value) hcloses.stop hrest
  | text s => exact fun _ hrest => .lexeme (lexeme_quoted s) hrest
  | array items _ ih =>
    intro rest ts _ hrest
    cases items with
    | nil =>
      have hempty := Spells.lexeme .openArray (Spells.lexeme .closeArray hrest)
      exact hempty
    | cons v items =>
      have hitems := Spells.lexeme .openArray (spells_items ih hrest)
      rw [Printer.compact, tokens, List.append_assoc]
      exact hitems
  | object members _ _ ih =>
    intro rest ts _ hrest
    cases members with
    | nil =>
      have hempty := Spells.lexeme .openObject (Spells.lexeme .closeObject hrest)
      exact hempty
    | cons m members =>
      have hmembers := Spells.lexeme .openObject (spells_members ih hrest)
      rw [Printer.compact, List.append_assoc]
      exact hmembers

/-! ### Values -/

/-- Items behind others, and the end of their array. -/
theorem derives_moreItems {room : Nat} {vs items : List Json} (hts : Derives room ts (.items vs))
    (h : ∀ v ∈ items, Derives room (tokens v) (.value v)) :
    Derives (room + 1) (.openArray :: (ts ++ moreItems items)) (.value (.array (vs ++ items))) := by
  induction items generalizing ts vs with
  | nil =>
    rw [List.append_nil, moreItems]
    exact .array hts
  | cons v items ih =>
    obtain ⟨hv, hitems⟩ := List.forall_mem_cons.mp h
    have hmore := ih (.nextItem hts hv) hitems
    rw [List.append_assoc, List.append_assoc, List.singleton_append] at hmore
    rwa [moreItems]

/-- A new name goes behind the others. -/
theorem setMember_of_not_mem {name : String} {members : List (String × Json)} (v : Json)
    (h : name ∉ members.map Prod.fst) : setMember name v members = members ++ [(name, v)] := by
  induction members with
  | nil => rfl
  | cons m members ih =>
    rw [List.map_cons, List.mem_cons, not_or] at h
    rw [setMember, if_neg (Ne.symm h.1), ih h.2, List.cons_append]

/-- Members of new names behind others, and the end of their object. -/
theorem derives_moreMembers {room : Nat} {done members : List (String × Json)}
    (hts : Derives room ts (.members done)) (hnames : ((done ++ members).map Prod.fst).Nodup)
    (h : ∀ m ∈ members, Derives room (tokens m.2) (.value m.2)) :
    Derives (room + 1) (.openObject :: (ts ++ moreMembers members))
      (.value (.object (done ++ members))) := by
  induction members generalizing ts done with
  | nil =>
    rw [List.append_nil, moreMembers]
    exact .object hts
  | cons m members ih =>
    obtain ⟨name, v⟩ := m
    obtain ⟨hv, hmembers⟩ := List.forall_mem_cons.mp h
    -- a name that is new is put last, which is where it is printed
    have hname : name ∉ done.map Prod.fst := by
      rw [List.map_append, List.nodup_append] at hnames
      obtain ⟨-, -, hapart⟩ := hnames
      exact fun hmem => hapart name hmem name List.mem_cons_self rfl
    have hnext := Derives.nextMember hts name hv
    rw [setMember_of_not_mem v hname] at hnext
    rw [List.append_cons] at hnames
    have hmore := ih hnext hnames hmembers
    rw [List.append_assoc, List.append_assoc, List.singleton_append] at hmore
    rwa [moreMembers]

/-- The tokens of a value without fractions stand for it, if there is room for its containers. -/
theorem derives_tokens {v : Json} {room : Nat} (hv : Exact v) (hroom : depth v ≤ room) :
    Derives room (tokens v) (.value v) := by
  induction hv generalizing room with
  | null => exact .null
  | bool b => exact .bool b
  | whole n => exact .number (number?_numeral n)
  | text s => exact .text s
  | array items _ ih =>
    rw [depth] at hroom
    -- the array itself takes one container of the room
    obtain ⟨room, rfl⟩ := Nat.exists_eq_add_of_lt (show 0 < room by omega)
    rw [Nat.zero_add] at hroom ⊢
    have hitems : ∀ v ∈ items, Derives room (tokens v) (.value v) := by
      intro v hv
      have hdepth := depth_le_depthOfItems hv
      exact ih v hv (by omega)
    cases items with
    | nil => exact .emptyArray
    | cons v items =>
      obtain ⟨hv, hmore⟩ := List.forall_mem_cons.mp hitems
      exact derives_moreItems (.firstItem hv) hmore
  | object members hnames _ ih =>
    rw [depth] at hroom
    obtain ⟨room, rfl⟩ := Nat.exists_eq_add_of_lt (show 0 < room by omega)
    rw [Nat.zero_add] at hroom ⊢
    have hmembers : ∀ m ∈ members, Derives room (tokens m.2) (.value m.2) := by
      intro m hm
      have hdepth := depth_le_depthOfMembers hm
      exact ih m hm (by omega)
    cases members with
    | nil => exact .emptyObject
    | cons m members =>
      obtain ⟨name, v⟩ := m
      obtain ⟨hv, hmore⟩ := List.forall_mem_cons.mp hmembers
      exact derives_moreMembers (.firstMember name hv) hnames hmore

/-- The text of a value without fractions is a document of the value. -/
theorem document_compact {v : Json} (hv : Exact v) (hdepth : depth v ≤ Reader.maxDepth) :
    Document (Utf8.encode v.compact) v := by
  have hspells := prints_of_exact hv (.inl rfl) .nil
  rw [List.append_nil, List.append_nil] at hspells
  rw [Utf8.encode, compact, String.toList_ofList]
  exact .intro hspells (derives_tokens hv hdepth)

/-- The text of a value without fractions is read as the value. -/
theorem value_ofBytes_compact {v : Json} (hv : Exact v) (hdepth : depth v ≤ Reader.maxDepth) :
    (Input.ofBytes (Utf8.encode v.compact)).value = .ok (v, ⟨[], .complete⟩) := by
  have hread := read_eq_ok_iff.mpr (document_compact hv hdepth)
  obtain ⟨ts, hlex, hrun⟩ := read_eq_ok_iff_tokens.mp hread
  rw [Input.ofBytes, hlex, Input.value]
  dsimp only
  rw [hrun]
  rfl

end ServiceCall.Json
