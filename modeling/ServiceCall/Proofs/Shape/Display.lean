import ServiceCall.Proofs.Shape.Reading

/-!
# Shapes read back from their display

A shape is displayed as one of its type names. It is read back from there if its names can be told
from the words of the grammar, and only such shapes are ever read. So the display of what is read is a
normal form of the text: reading it again changes neither the shape nor the text.
-/

namespace ServiceCall

namespace Shape

/-- The names in the shape are identifiers, and no bean has the name of a keyword or scalar. -/
inductive Named : Shape → Prop where
  | void : Named .void
  | scalar (kind : ScalarKind) : Named (.scalar kind)
  | enumeration {name : String} (id : Identifier name.toList) : Named (.enumeration name)
  | bean {name : String} (id : Identifier name.toList) (notVoid : name ≠ "void")
      (notScalar : ∀ kind : ScalarKind, name ≠ kind.name) : Named (.bean name)
  | list {item : Shape} (type : Named item) : Named (.list item)
  | optional {item : Shape} (type : Named item) : Named (.optional item)
  | map {key value : Shape} (keyType : Named key) (valueType : Named value) : Named (.map key value)

/-- The display of a shape is a name of it. -/
theorem Named.derives_chars {t : Shape} (h : t.Named) : Derives t.chars t := by
  induction h with
  | void => exact .void
  | scalar kind => exact .scalar kind
  | @enumeration name id =>
    have hname : Derives ("enum:".toList ++ name.toList) (.enumeration (String.ofList name.toList)) :=
      .enumeration id
    rwa [String.ofList_toList] at hname
  | @bean name id notVoid notScalar =>
    have hname : Derives name.toList (.bean (String.ofList name.toList)) :=
      .bean id (fun h => notVoid (String.toList_inj.mp h))
        fun kind h => notScalar kind (String.toList_inj.mp h)
    rwa [String.ofList_toList] at hname
  | list _ ih => exact .list ih
  | optional _ ih => exact .optional ih
  | map _ _ ihkey ihvalue => exact .map ihkey ihvalue

/-- What has a name in the grammar has names that can be told from its words. -/
theorem Derives.named {cs : List Char} {t : Shape} (h : Derives cs t) : t.Named := by
  induction h with
  | blankBefore _ _ ih => exact ih
  | blankAfter _ _ ih => exact ih
  | void => exact .void
  | scalar kind => exact .scalar kind
  | enumeration id => exact .enumeration (by rwa [String.toList_ofList])
  | @bean name id notVoid notScalar =>
    refine .bean (by rwa [String.toList_ofList]) (fun h => notVoid ?_) fun kind h => notScalar kind ?_
    · rw [← h, String.toList_ofList]
    · rw [← h, String.toList_ofList]
  | list _ ih => exact .list ih
  | optional _ ih => exact .optional ih
  | map _ _ ihkey ihvalue => exact .map ihkey ihvalue

theorem parse_text_of_named {t : Shape} (h : t.Named) : parse t.text = .ok t := by
  rw [parse, text, String.toList_ofList]
  exact parseChars_of_derives h.derives_chars

theorem named_of_parse {text : String} {t : Shape} (h : parse text = .ok t) : t.Named :=
  (derives_of_parseChars h).named

/-- A shape is read back from its display just if its names can be told from the words of the grammar,
and just these shapes are read from some text. Reading the display of what was read gives the same
shape and the same display, and no other shape has this display. -/
theorem read_back_iff (t : Shape) :
    (parse t.text = .ok t ↔ t.Named)
      ∧ ((∃ text, parse text = .ok t) ↔ t.Named)
      ∧ (∀ text, parse text = .ok t →
          ∃ again, parse t.text = .ok again ∧ again = t ∧ again.text = t.text)
      ∧ ∀ other : Shape, t.Named → other.Named → other.text = t.text → other = t := by
  refine ⟨⟨named_of_parse, parse_text_of_named⟩, ⟨?_, ?_⟩, ?_, ?_⟩
  · rintro ⟨text, h⟩
    exact named_of_parse h
  · intro h
    exact ⟨t.text, parse_text_of_named h⟩
  · intro text h
    exact ⟨t, parse_text_of_named (named_of_parse h), rfl, rfl⟩
  · intro other ht hother htext
    have hread : parse t.text = .ok other := htext ▸ parse_text_of_named hother
    exact (Except.ok.inj ((parse_text_of_named ht).symm.trans hread)).symm

/-- Names that only start like keywords are names of beans. -/
example : (Shape.map (.bean "Map1") (.optional (.list (.enumeration "void")))).text
    = "Map<Map1,Optional<List<enum:void>>>" := by rfl

end Shape

end ServiceCall
