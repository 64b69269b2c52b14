import ServiceCall.Proofs.Contract.Resolving

/-!
# The paths that are templates

A path is a template if it begins with a slash, has neither a query nor a fragment, and each piece
behind a slash that begins with a colon goes on with a name of its own. Any other piece is a literal
text, even an empty one or one with a colon further on. Each piece is read as one segment, so nothing
of the path is lost.
-/

namespace ServiceCall.PathTemplate

/-- What stands between the slashes of a path, the first slash being its beginning. -/
def piecesOf (path : String) : List (List Char) := path.toList.tail.splitOn '/'

/-- What a path must be like to be a template. -/
structure IsTemplate (path : String) : Prop where
  rooted : path.toList.head? = some '/'
  bare : '?' ∉ path.toList ∧ '#' ∉ path.toList
  /-- What follows a colon is a name, and no earlier piece has a colon and the same name. -/
  named (before after : List (List Char)) (name : List Char) :
    piecesOf path = before ++ (':' :: name) :: after → IsName name ∧ ':' :: name ∉ before

variable {t : PathTemplate} {path : String}

/-- With nothing before them, the pieces pass if no name has an earlier piece like it. -/
theorem allPass_nil_iff {pieces : List (List Char)} : AllPass [] pieces ↔ ∀ before after name,
    pieces = before ++ (':' :: name) :: after → IsName name ∧ ':' :: name ∉ before := by
  have hmem (before : List (List Char)) (name : List Char) :
      .placeholder (String.ofList name) ∈ before.map Segment.ofPiece ↔ ':' :: name ∈ before :=
    List.mem_map_of_injective ofPiece_injective (a := ':' :: name)
  simp only [AllPass, Passes, List.nil_append, hmem]
  constructor
  · intro h before after name hpieces
    exact h before after _ hpieces name rfl
  · rintro h before after _ hpieces name rfl
    exact h before after name hpieces

theorem any_eq_false_iff {cs : List Char} :
    cs.any (fun c => c == '?' || c == '#') = false ↔ '?' ∉ cs ∧ '#' ∉ cs := by
  rw [List.any_eq_false]
  simp only [Bool.or_eq_true, beq_iff_eq, not_or]
  exact ⟨fun h => ⟨fun hquery => (h _ hquery).1 rfl, fun hfragment => (h _ hfragment).2 rfl⟩,
    fun ⟨hquery, hfragment⟩ c hc => ⟨fun h => hquery (h ▸ hc), fun h => hfragment (h ▸ hc)⟩⟩

/-- What is left to be tested behind the first slash. -/
theorem isTemplate_iff {rest : List Char} (hpath : path.toList = '/' :: rest) : IsTemplate path
    ↔ rest.any (fun c => c == '?' || c == '#') = false ∧ AllPass [] (rest.splitOn '/') := by
  have hpieces : piecesOf path = rest.splitOn '/' := by rw [piecesOf, hpath, List.tail_cons]
  have hbare : ('?' ∉ path.toList ∧ '#' ∉ path.toList) ↔ '?' ∉ rest ∧ '#' ∉ rest := by simp [hpath]
  rw [any_eq_false_iff, ← hbare, allPass_nil_iff, ← hpieces]
  exact ⟨fun ⟨_, bare, named⟩ => ⟨bare, named⟩,
    fun ⟨bare, named⟩ => ⟨by rw [hpath, List.head?_cons], bare, named⟩⟩

/-- Just the templates are read, with one segment for each piece. -/
theorem parse_ok_iff_template :
    parse path = .ok t ↔ IsTemplate path ∧ (piecesOf path).map Segment.ofPiece = t.segments := by
  rw [parse_ok_iff_slash]
  simp only [readSegments_eq_ok_iff, List.nil_append]
  constructor
  · rintro ⟨rest, hpath, hbare, hpass, hsegments⟩
    refine ⟨(isTemplate_iff hpath).mpr ⟨hbare, hpass⟩, ?_⟩
    rwa [piecesOf, hpath, List.tail_cons]
  · rintro ⟨htemplate, hsegments⟩
    obtain ⟨rest, hpath⟩ := List.head?_eq_some_iff.mp htemplate.rooted
    obtain ⟨hbare, hpass⟩ := (isTemplate_iff hpath).mp htemplate
    rw [piecesOf, hpath, List.tail_cons] at hsegments
    exact ⟨rest, hpath, hbare, hpass, hsegments⟩

/-- What a template tells of the path that it was read from. -/
structure Retells (t : PathTemplate) (path : String) : Prop where
  text : t.text = path
  /-- A slash before each segment and a colon before each name make the path again. -/
  joined : path.toList = t.segments.flatMap fun
    | .literal text => '/' :: text.toList
    | .placeholder name => '/' :: ':' :: name.toList
  /-- There is one segment for each piece, and it is written like the piece. -/
  split : t.segments.map Segment.chars = piecesOf path
  /-- The placeholders are the pieces that begin with a colon, in the order of the path. -/
  ordered : t.placeholders.map (fun name => ':' :: name.toList)
    = (piecesOf path).filter fun piece => piece.head? = some ':'
  distinct : t.placeholders.Nodup
  member (name : String) : t.hasPlaceholder name = true ↔ name ∈ t.placeholders

theorem retells_of_parse (h : parse path = .ok t) : Retells t path := by
  obtain ⟨-, hsegments⟩ := parse_ok_iff_template.mp h
  have htext : t.text = path := text_of_parse h
  refine ⟨htext, ?_, ?_, ?_, nodup_placeholders h, fun name => ?_⟩
  · rw [← htext, text, String.toList_ofList]
    congr 1
    funext s
    cases s <;> rfl
  · rw [← hsegments, map_chars_ofPiece]
  · rw [placeholders, ← hsegments, List.filterMap_map, List.map_filterMap,
      ← List.filterMap_eq_filter]
    congr 1
    exact funext name?_ofPiece
  · rw [hasPlaceholder, List.contains_iff_mem]

/-- A path is read just if it is a template, and what is read retells the path. -/
theorem exists_parse_iff_and_retells (path : String) :
    ((∃ t, parse path = .ok t) ↔ IsTemplate path) ∧ ∀ t, parse path = .ok t → Retells t path := by
  refine ⟨⟨fun ⟨t, h⟩ => (parse_ok_iff_template.mp h).1, fun h => ?_⟩, fun t => retells_of_parse⟩
  exact ⟨⟨(piecesOf path).map Segment.ofPiece⟩, parse_ok_iff_template.mpr ⟨h, rfl⟩⟩

/-- Empty pieces and colons within a piece are literal. -/
example : parse "//user/:id/a:b/:order_2/"
    = .ok ⟨[.literal "", .literal "user", .placeholder "id", .literal "a:b", .placeholder "order_2",
      .literal ""]⟩ := by rfl

end ServiceCall.PathTemplate
