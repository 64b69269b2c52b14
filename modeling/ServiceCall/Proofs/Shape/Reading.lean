import ServiceCall.Proofs.Except
import ServiceCall.Proofs.Shape.Brackets

/-!
# What is read as a type name

The reader takes an opening word and the last bracket of a text away and looks at what is left. It
accepts just the texts of the grammar all the same: a text with brackets that do not match fails in
one of its pieces.
-/

namespace ServiceCall

namespace Shape

theorem argument?_fits {opening : String} {cs : List Char} {inner : Option (List Char)}
    (h : argument? opening cs = some inner) :
    (∃ rest, cs = opening.toList ++ rest)
      ∧ ∀ item, inner = some item → cs = opening.toList ++ item ++ ['>'] := by
  obtain ⟨rest, hrest, hinner⟩ := Option.map_eq_some_iff.mp h
  rw [Cut.after?_eq_some_iff] at hrest
  refine ⟨⟨rest, hrest⟩, ?_⟩
  rintro item rfl
  split at hinner
  · next hlast =>
    cases hinner
    rw [hrest, List.append_assoc, List.dropLast_append_getLast? _ hlast]
  · cases hinner

/-- What a text looks like, by the kind of type that it names. -/
def Head.Fits (s : List Char) : Head → Prop
  | .empty => s = []
  | .void => s = "void".toList
  | .scalar kind => s = kind.name.toList
  | .enumeration name => s = "enum:".toList ++ name
  | .list inner => (∃ rest, s = "List<".toList ++ rest)
      ∧ ∀ item, inner = some item → s = "List<".toList ++ item ++ ['>']
  | .optional inner => (∃ rest, s = "Optional<".toList ++ rest)
      ∧ ∀ item, inner = some item → s = "Optional<".toList ++ item ++ ['>']
  | .map inner => (∃ rest, s = "Map<".toList ++ rest)
      ∧ ∀ items, inner = some items → s = "Map<".toList ++ items ++ ['>']
  | .bean => s ≠ "void".toList ∧ ∀ kind : ScalarKind, s ≠ kind.name.toList

theorem head_fits (s : List Char) : (head s).Fits s := by
  unfold head
  split
  · next hs => exact hs
  split
  · next hs => exact hs
  next hvoid =>
  split
  · next kind hkind => exact ofName?_eq_some_iff.mp hkind
  next hscalar =>
  split
  · next name hname => exact Cut.after?_eq_some_iff.mp hname
  split
  · next inner hinner => exact argument?_fits hinner
  split
  · next inner hinner => exact argument?_fits hinner
  split
  · next inner hinner => exact argument?_fits hinner
  · exact ⟨hvoid, ofName?_eq_none_iff.mp hscalar⟩

theorem head_scalar (kind : ScalarKind) : head kind.name.toList = .scalar kind := by
  cases kind <;> rfl

theorem head_enumeration (name : List Char) :
    head ("enum:".toList ++ name) = .enumeration name := by
  simp [head, Cut.after?, ScalarKind.ofName?, ScalarKind.all, ScalarKind.name]

theorem head_list (item : List Char) :
    head ("List<".toList ++ item ++ ['>']) = .list (some item) := by
  simp [head, argument?, Cut.after?, ScalarKind.ofName?, ScalarKind.all, ScalarKind.name]

theorem head_optional (item : List Char) :
    head ("Optional<".toList ++ item ++ ['>']) = .optional (some item) := by
  simp [head, argument?, Cut.after?, ScalarKind.ofName?, ScalarKind.all, ScalarKind.name]

theorem head_map (items : List Char) :
    head ("Map<".toList ++ items ++ ['>']) = .map (some items) := by
  simp [head, argument?, Cut.after?, ScalarKind.ofName?, ScalarKind.all, ScalarKind.name]

/-- An identifier that is taken by nothing else names a bean. -/
theorem head_bean {name : List Char} (h : Identifier name) (hvoid : name ≠ "void".toList)
    (hscalar : ∀ kind : ScalarKind, name ≠ kind.name.toList) : head name = .bean := by
  have hcolon : ':' ∉ name := h.not_mem (by decide)
  have hopen : '<' ∉ name := h.not_mem (by decide)
  have hfits := head_fits name
  cases hhead : head name with rw [hhead] at hfits
  | empty => exact absurd hfits h.ne_nil
  | void => exact absurd hfits hvoid
  | scalar kind => exact absurd hfits (hscalar kind)
  | enumeration rest => exact absurd (hfits ▸ by simp) hcolon
  | list inner =>
    obtain ⟨⟨rest, hrest⟩, -⟩ := hfits
    exact absurd (hrest ▸ by simp) hopen
  | optional inner =>
    obtain ⟨⟨rest, hrest⟩, -⟩ := hfits
    exact absurd (hrest ▸ by simp) hopen
  | map inner =>
    obtain ⟨⟨rest, hrest⟩, -⟩ := hfits
    exact absurd (hrest ▸ by simp) hopen

/-! ### Reading -/

theorem splitComma_eq_some {depth : Nat} {cs key value : List Char}
    (h : splitComma depth cs = some (key, value)) : cs = key ++ ',' :: value := by
  induction cs generalizing depth key with
  | nil => cases h
  | cons c cs ih =>
    rw [splitComma] at h
    split at h
    · next hcomma =>
      cases h
      rw [hcomma.1, List.nil_append]
    · obtain ⟨⟨k, v⟩, hrest, heq⟩ := Option.map_eq_some_iff.mp h
      cases heq
      rw [ih hrest, List.cons_append]

theorem identifier_eq_ok {name : List Char} {text : String} (h : identifier name = .ok text) :
    Identifier name ∧ text = String.ofList name := by
  unfold identifier at h
  split at h
  · next hid =>
    cases h
    exact ⟨isIdentifier_iff.mp hid, rfl⟩
  · cases h

theorem identifier_ok {name : List Char} (h : Identifier name) :
    identifier name = .ok (String.ofList name) := if_pos (isIdentifier_iff.mpr h)

/-- The shape of a trimmed text, given what kind of type it names. -/
def readHead (s : List Char) : Head → Except Error Shape
  | .empty => .error .empty
  | .void => .ok .void
  | .scalar kind => .ok (.scalar kind)
  | .enumeration name => (identifier name).map .enumeration
  | .list none | .optional none | .map none => .error (.unbalanced (String.ofList s))
  | .list (some inner) => (parseChars inner).map .list
  | .optional (some inner) => (parseChars inner).map .optional
  | .map (some inner) =>
    match splitComma 0 inner with
    | none => .error (.oneArgument (String.ofList s))
    | some (key, value) => do
      let k ← parseChars key
      let v ← parseChars value
      return .map k v
  | .bean => (identifier s).map .bean

theorem parseChars_eq (text : List Char) :
    parseChars text = readHead (Blank.trimChars text) (head (Blank.trimChars text)) := by
  rw [parseChars]
  generalize Blank.trimChars text = s
  split
  all_goals rename_i hhead
  all_goals rw [hhead]
  all_goals try rfl
  split
  · next hsplit => simp only [readHead, hsplit]
  · next key value hsplit =>
    simp only [readHead, hsplit]
    cases parseChars key with
    | error e => rfl
    | ok k => cases parseChars value <;> rfl

theorem length_of_read {text s inner : List Char} (hs : Blank.trimChars text = s)
    (h : head s = .list (some inner) ∨ head s = .optional (some inner)
      ∨ head s = .map (some inner)) : inner.length < text.length :=
  Nat.lt_of_lt_of_le (length_of_head h) (hs ▸ length_trimChars_le text)

/-- What is read is derivable. -/
theorem derives_of_parseChars {text : List Char} {t : Shape} (h : parseChars text = .ok t) :
    Derives text t := by
  have hfits := head_fits (Blank.trimChars text)
  rw [parseChars_eq] at h
  apply Derives.of_trim
  generalize hs : Blank.trimChars text = s at *
  -- the reader calls itself on what stands in the brackets, which is shorter; so does this proof
  cases hhead : head s with rw [hhead] at h hfits
  | empty => cases h
  | void =>
    cases h
    rw [hfits]
    exact .void
  | scalar kind =>
    cases h
    rw [hfits]
    exact .scalar kind
  | enumeration name =>
    obtain ⟨_, hname, rfl⟩ := map_eq_ok.mp h
    obtain ⟨hid, rfl⟩ := identifier_eq_ok hname
    rw [hfits]
    exact .enumeration hid
  | list inner =>
    cases inner with
    | none => cases h
    | some inner =>
      obtain ⟨item, hitem, rfl⟩ := map_eq_ok.mp h
      rw [hfits.2 inner rfl]
      have hlt := length_of_read hs (Or.inl hhead)
      exact .list (derives_of_parseChars hitem)
  | optional inner =>
    cases inner with
    | none => cases h
    | some inner =>
      obtain ⟨item, hitem, rfl⟩ := map_eq_ok.mp h
      rw [hfits.2 inner rfl]
      have hlt := length_of_read hs (Or.inr (Or.inl hhead))
      exact .optional (derives_of_parseChars hitem)
  | map inner =>
    cases inner with
    | none => cases h
    | some inner =>
      have hlt := length_of_read hs (Or.inr (Or.inr hhead))
      cases hsplit : splitComma 0 inner with
      | none => simp [readHead, hsplit] at h
      | some parts =>
        obtain ⟨key, value⟩ := parts
        have hparts := length_of_splitComma hsplit
        simp only [readHead, hsplit, bind_eq_ok] at h
        obtain ⟨k, hkey, v, hvalue, hmap⟩ := h
        cases hmap
        rw [hfits.2 inner rfl, splitComma_eq_some hsplit, ← List.append_assoc]
        exact .map (derives_of_parseChars hkey) (derives_of_parseChars hvalue)
  | bean =>
    obtain ⟨_, hname, rfl⟩ := map_eq_ok.mp h
    obtain ⟨hid, rfl⟩ := identifier_eq_ok hname
    exact .bean hid hfits.1 hfits.2
termination_by text.length
decreasing_by all_goals omega

theorem parseChars_of_trim {a b : List Char} (h : Blank.trimChars a = Blank.trimChars b) :
    parseChars a = parseChars b := by
  rw [parseChars_eq, parseChars_eq b, h]

theorem tight_map (key value : List Char) :
    Blank.Tight ("Map<".toList ++ key ++ ',' :: value ++ ['>']) := by
  rw [List.append_assoc "Map<".toList]
  exact Blank.tight_bracketed (by decide) (key ++ ',' :: value)

/-- What is derivable is read. -/
theorem parseChars_of_derives {text : List Char} {t : Shape} (h : Derives text t) :
    parseChars text = .ok t := by
  -- blanks go first; what a rule writes is tight without them, and its head shows the rule
  induction h with
  | blankBefore blank _ ih => rw [parseChars_of_trim (Blank.trimChars_cons blank _), ih]
  | blankAfter blank _ ih => rw [parseChars_of_trim (Blank.trimChars_concat blank _), ih]
  | void =>
    rw [parseChars_eq]
    rfl
  | scalar kind =>
    rw [parseChars_eq, (tight_of_plain plain_of_scalar).trim, head_scalar]
    rfl
  | @enumeration name id =>
    have htight : Blank.Tight ("enum:".toList ++ name) := by
      refine Blank.tight_append (by decide) ?_
      rw [List.getLast?_eq_some_getLast id.ne_nil, Option.map_some,
        (id.plain _ (List.getLast_mem id.ne_nil)).notBlank]
    rw [parseChars_eq, htight.trim, head_enumeration, readHead, identifier_ok id]
    rfl
  | @list item t _ ih =>
    have htight : Blank.Tight ("List<".toList ++ item ++ ['>']) :=
      Blank.tight_bracketed (by decide) item
    rw [parseChars_eq, htight.trim, head_list, readHead, ih]
    rfl
  | @optional item t _ ih =>
    have htight : Blank.Tight ("Optional<".toList ++ item ++ ['>']) :=
      Blank.tight_bracketed (by decide) item
    rw [parseChars_eq, htight.trim, head_optional, readHead, ih]
    rfl
  | @map key value k v keyType valueType ihkey ihvalue =>
    -- the comma of this map is the first outside brackets, since the brackets of the key are closed
    have hsplit : splitComma 0 (key ++ ',' :: value) = some (key, value) :=
      splitComma_of_enclosed keyType.enclosed_zero value
    rw [parseChars_eq, (tight_map key value).trim, List.append_assoc "Map<".toList, head_map]
    simp only [readHead, hsplit, ihkey, ihvalue]
    rfl
  | bean id notVoid notScalar =>
    rw [parseChars_eq, (tight_of_plain id.plain).trim, head_bean id notVoid notScalar, readHead,
      identifier_ok id]
    rfl

/-- The text of a map, blanks at its ends apart, and those of its arguments. -/
theorem Derives.map_parts {cs : List Char} {k v : Shape} (h : Derives cs (.map k v)) :
    ∃ key value, Blank.trimChars cs = "Map<".toList ++ key ++ ',' :: value ++ ['>']
      ∧ Derives key k ∧ Derives value v := by
  generalize ht : Shape.map k v = t at h
  induction h with
  | blankBefore blank _ ih =>
    rw [Blank.trimChars_cons blank]
    exact ih ht
  | blankAfter blank _ ih =>
    rw [Blank.trimChars_concat blank]
    exact ih ht
  | @map key value _ _ keyType valueType =>
    cases ht
    exact ⟨key, value, (tight_map key value).trim, keyType, valueType⟩
  | void | scalar _ | enumeration _ | list _ | optional _ | bean _ _ _ => cases ht

/-- A text is read as a shape just if the grammar derives the shape from it. Its brackets are then
balanced, with as many of them and of commas as the shape has containers and maps, and the arguments
of a map are what stands on either side of its first comma outside brackets. -/
theorem parse_eq_ok_iff (text : String) (t : Shape) :
    (parse text = .ok t ↔ Derives text.toList t)
    ∧ (parse text = .ok t → Balanced text.toList ∧ text.toList.count '<' = t.containers
        ∧ text.toList.count ',' = t.maps)
    ∧ ∀ k v, parse text = .ok t → t = .map k v → ∃ key value,
        Blank.trimChars text.toList = "Map<".toList ++ key ++ ',' :: value ++ ['>']
        ∧ Balanced key ∧ CommasInside key ∧ Derives key k ∧ Derives value v := by
  refine ⟨⟨derives_of_parseChars, parseChars_of_derives⟩, fun h => ?_, ?_⟩
  · have hderives : Derives text.toList t := derives_of_parseChars h
    obtain ⟨hopen, -, hcomma⟩ := hderives.counts
    exact ⟨hderives.enclosed_zero.balanced, hopen, hcomma⟩
  · rintro k v h rfl
    have hderives : Derives text.toList (.map k v) := derives_of_parseChars h
    obtain ⟨key, value, htext, hkey, hvalue⟩ := hderives.map_parts
    exact ⟨key, value, htext, hkey.enclosed_zero.balanced, hkey.enclosed_zero.commasInside, hkey,
      hvalue⟩

end Shape

end ServiceCall
