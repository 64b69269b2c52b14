import Mathlib.Data.List.Nodup
import ServiceCall.Proofs.Contract.Segments
import ServiceCall.Proofs.First
import ServiceCall.Proofs.Text.Pieces

/-!
# Templates with their values

A template that has been read is written as it was read and names no placeholder twice. It resolves if
each placeholder has a value that can stand for a segment, and then to its segments with these values in
place.
-/

namespace ServiceCall.PathTemplate

variable {t : PathTemplate} {values : KeyMap String}

theorem mem_filterMap_name? {name : String} {segments : List Segment} :
    name ∈ segments.filterMap Segment.name? ↔ .placeholder name ∈ segments := by
  rw [List.mem_filterMap]
  constructor
  · rintro ⟨s, hs, hname⟩
    cases s with
    | literal text => cases hname
    | placeholder n =>
      cases hname
      exact hs
  · exact fun h => ⟨_, h, rfl⟩

theorem mem_placeholders {name : String} :
    name ∈ t.placeholders ↔ .placeholder name ∈ t.segments :=
  mem_filterMap_name?

/-- A template is read from a slash on, its segments between the slashes behind it. -/
theorem parse_ok_iff_slash {path : String} :
    parse path = .ok t ↔ ∃ rest, path.toList = '/' :: rest
      ∧ rest.any (fun c => c == '?' || c == '#') = false
      ∧ readSegments [] (rest.splitOn '/') = .ok t.segments := by
  constructor
  · intro h
    rw [parse] at h
    split at h
    · next rest hpath =>
      split at h
      · cases h
      next hends =>
      split at h
      · next segments hread =>
        cases h
        exact ⟨rest, hpath, Bool.eq_false_iff.mpr hends, hread⟩
      · cases h
    · cases h
  · rintro ⟨rest, hpath, hends, hread⟩
    rw [parse, hpath]
    show (if rest.any (fun c => c == '?' || c == '#') then _ else _) = _
    rw [hends, if_neg Bool.false_ne_true, hread]

/-! ### Names -/

/-- A piece that passes is read as a literal or has a name of its own. -/
theorem nodup_concat_ofPiece {earlier : List Segment} {piece : List Char}
    (hearlier : (earlier.filterMap Segment.name?).Nodup) (hpass : Passes earlier piece) :
    ((earlier ++ [Segment.ofPiece piece]).filterMap Segment.name?).Nodup := by
  rw [List.filterMap_append]
  by_cases h : ∃ name, piece = ':' :: name
  · obtain ⟨name, rfl⟩ := h
    have hnew : String.ofList name ∉ earlier.filterMap Segment.name? :=
      fun hname => (hpass name rfl).2 (mem_filterMap_name?.mp hname)
    exact List.nodup_append.mpr ⟨hearlier, List.nodup_singleton _, fun a ha b hb hab =>
      hnew (List.mem_singleton.mp hb ▸ hab ▸ ha)⟩
  · rw [ofPiece_of_plain (not_exists.mp h)]
    exact (List.append_nil _).symm ▸ hearlier

/-- Reading on keeps the names apart that are apart so far. -/
theorem nodup_readSegments {earlier out : List Segment} {pieces : List (List Char)}
    (hearlier : (earlier.filterMap Segment.name?).Nodup)
    (h : readSegments earlier pieces = .ok out) : (out.filterMap Segment.name?).Nodup := by
  induction pieces generalizing earlier with
  | nil =>
    rw [readSegments] at h
    cases h
    exact hearlier
  | cons piece rest ih =>
    obtain ⟨hpass, hrest⟩ := readSegments_cons_eq_ok_iff.mp h
    exact ih (nodup_concat_ofPiece hearlier hpass) hrest

/-- No placeholder of a template occurs twice. -/
theorem nodup_placeholders {path : String} (h : parse path = .ok t) : t.placeholders.Nodup := by
  obtain ⟨rest, -, -, hread⟩ := parse_ok_iff_slash.mp h
  have hnone : (([] : List Segment).filterMap Segment.name?).Nodup := List.nodup_nil
  exact nodup_readSegments hnone hread

/-! ### The text -/

/-- The segments that are read are written as the pieces were. -/
theorem chars_readSegments {earlier out : List Segment} {pieces : List (List Char)}
    (h : readSegments earlier pieces = .ok out) :
    out.map Segment.chars = earlier.map Segment.chars ++ pieces := by
  obtain ⟨-, rfl⟩ := readSegments_eq_ok_iff.mp h
  rw [List.map_append, map_chars_ofPiece]

/-- What is written between the slashes of a template. -/
def pieces (t : PathTemplate) : List (List Char) := t.segments.map Segment.chars

theorem text_eq (t : PathTemplate) : t.text = String.ofList (t.pieces.flatMap fun p => '/' :: p) := by
  rw [text, pieces, List.flatMap_map]

theorem pieces_of_parse {path : String} (h : parse path = .ok t) :
    ∃ rest, path.toList = '/' :: rest ∧ t.pieces = rest.splitOn '/' := by
  obtain ⟨rest, hpath, -, hread⟩ := parse_ok_iff_slash.mp h
  exact ⟨rest, hpath, chars_readSegments hread⟩

/-- A template is written as it was read. -/
theorem text_of_parse {path : String} (h : parse path = .ok t) : t.text = path := by
  obtain ⟨rest, hpath, hpieces⟩ := pieces_of_parse h
  rw [text_eq, ← String.toList_inj, String.toList_ofList, hpath, hpieces,
    flatMap_cons_eq_intercalate '/' (List.splitOn_ne_nil '/' rest), List.intercalate_splitOn]

/-! ### Values -/

/-- Each placeholder has a value that can stand for a segment. -/
def Admits (t : PathTemplate) (values : KeyMap String) : Prop :=
  ∀ name ∈ t.placeholders, ∃ value, values.get? name = some value ∧ isUnusable value = false

/-- The value of a placeholder, or no text at all. -/
def valueOf (values : KeyMap String) (name : String) : String := (values.get? name).getD ""

/-- A segment with the value of its placeholder. -/
def Segment.fill (values : KeyMap String) : Segment → String
  | .literal text => text
  | .placeholder name => valueOf values name

theorem resolveSegment_eq_ok {s : Segment} {text : String} :
    t.resolveSegment values s = .ok text
      ↔ (∀ name ∈ s.name?, ∃ value, values.get? name = some value ∧ isUnusable value = false)
        ∧ s.fill values = text := by
  cases s with
  | literal own => simp [resolveSegment, Segment.name?, Segment.fill]
  | placeholder name =>
    rw [resolveSegment, Segment.fill, valueOf, Segment.name?]
    cases hget : values.get? name with
    | none => simp [hget]
    | some value =>
      cases hvalue : isUnusable value with
      | true => simp [hget, hvalue]
      | false => simp [hget, hvalue]

/-- When a template resolves, and to what. -/
theorem resolve_eq_ok_iff {texts : List String} :
    t.resolve values = .ok texts
      ↔ t.Admits values ∧ t.segments.map (Segment.fill values) = texts := by
  have hadmits : t.Admits values ↔ ∀ s ∈ t.segments, ∀ name ∈ s.name?,
      ∃ value, values.get? name = some value ∧ isUnusable value = false := by
    simp only [Admits, placeholders, List.mem_filterMap]
    exact ⟨fun h s hs name hname => h name ⟨s, hs, hname⟩,
      fun h name ⟨s, hs, hname⟩ => h s hs name hname⟩
  rw [resolve, mapM_eq_ok, hadmits]
  simp only [resolveSegment_eq_ok]
  rw [List.forall₂_and_left, ← List.forall₂_map_left_iff, List.forall₂_eq_eq_eq]

/-- A segment whose placeholder has a value fails only for what the value is. -/
theorem invalid_of_resolveSegment {s : Segment} {e : ContractError}
    (hvalues : ∀ name ∈ s.name?, values.contains name = true)
    (h : t.resolveSegment values s = .error e) :
    ∃ name value, e = .invalidPathValue t.text name value := by
  cases s with
  | literal text => cases h
  | placeholder name =>
    obtain ⟨value, hvalue⟩ := Option.isSome_iff_exists.mp (hvalues name rfl)
    rw [resolveSegment, hvalue] at h
    dsimp only at h
    split at h
    · cases h
      exact ⟨name, value, rfl⟩
    · cases h

/-- A template whose placeholders have values resolves, or fails for what a value is. -/
theorem resolve_of_contains (h : ∀ name ∈ t.placeholders, values.contains name = true) :
    (∃ texts, t.resolve values = .ok texts)
      ∨ ∃ name value, t.resolve values = .error (.invalidPathValue t.text name value) := by
  cases hresolve : t.resolve values with
  | ok texts => exact .inl ⟨texts, rfl⟩
  | error e =>
    obtain ⟨s, hs, hfault⟩ := exists_of_mapM_eq_error hresolve
    obtain ⟨name, value, rfl⟩ := invalid_of_resolveSegment
      (fun name hname => h name (List.mem_filterMap.mpr ⟨s, hs, hname⟩)) hfault
    exact .inr ⟨name, value, rfl⟩

end ServiceCall.PathTemplate
