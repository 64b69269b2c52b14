import Mathlib.Data.List.Induction
import ServiceCall.Proofs.Contract.Resolving
import ServiceCall.Proofs.Url.Path

/-!
# The layout of a route

The path that a template leads to is laid out before the values are known: some of its segments are
fixed, the others are the values of placeholders. As long as no value holds a tab or line break, the
path of every call is this layout with the values filled in. A placeholder loses its place only to a
literal that is two dots with a tab or line break among them.
-/

namespace ServiceCall

open PathTemplate (Segment valueOf)

/-- One segment of a path: a fixed text, or the value of a placeholder. -/
inductive Slot where
  | fixed (chars : List Char)
  | value (name : String)
deriving DecidableEq

/-- The segment with the value in its place, escaped. -/
def Slot.fill (values : KeyMap String) : Slot → List Char
  | .fixed chars => chars
  | .value name => Percent.encode Percent.inSpecialSegment (valueOf values name).toList

namespace Layout

variable {slots : List Slot} {base : List (List Char)} {segments : List Segment}
  {values : KeyMap String}

/-! ### Laying out -/

/-- The slots without the empty segment of a bare root. -/
def rooted (slots : List Slot) : List Slot := if slots = [.fixed []] then [] else slots

/-- The slots without the last one, unless that is fixed and names a drive. -/
def retract (slots : List Slot) : List Slot :=
  match slots.getLast? with
  | some (.fixed chars) => if Url.isDrive chars then slots else slots.dropLast
  | _ => slots.dropLast

/-- The slots after one more segment of the template. -/
def place (slots : List Slot) : Segment → List Slot
  | .placeholder name => rooted slots ++ [.value name]
  | .literal text =>
    let s := text.toList
    if s = ['.'] ∨ s = ['.', '.'] then slots
    else if Url.kept s = ['.', '.'] then retract (rooted slots) ++ [.fixed []]
    else if Url.kept s = ['.'] then rooted slots ++ [.fixed []]
    else rooted slots ++ [.fixed (Percent.encode Percent.inSpecialSegment (Url.kept s))]

/-- The slots of a template behind the segments of the service. -/
def layout (base : List (List Char)) (segments : List Segment) : List Slot :=
  segments.foldl place (base.map .fixed)

theorem layout_append (more : List Segment) :
    layout base (segments ++ more) = more.foldl place (layout base segments) :=
  List.foldl_append

theorem layout_snoc (s : Segment) :
    layout base (segments ++ [s]) = place (layout base segments) s :=
  layout_append [s]

/-- A literal that is plain dots. -/
def IsDots (s : Segment) : Prop := s = .literal "." ∨ s = .literal ".."

/-- A literal that is two dots, but not plainly. -/
def Climbs (s : Segment) : Prop :=
  ∃ text : String, s = .literal text ∧ text ≠ ".." ∧ Url.kept text.toList = ['.', '.']

theorem isDots_literal {text : String} :
    IsDots (.literal text) ↔ text.toList = ['.'] ∨ text.toList = ['.', '.'] := by
  simp only [IsDots, Segment.literal.injEq, ← String.toList_inj]
  rfl

theorem Climbs.not_isDots {s : Segment} (h : Climbs s) : ¬ IsDots s := by
  obtain ⟨text, rfl, hne, hkept⟩ := h
  rintro (hone | htwo)
  · cases hone
    exact absurd hkept (by decide)
  · cases htwo
    exact hne rfl

theorem place_of_isDots {s : Segment} (h : IsDots s) : place slots s = slots := by
  rcases h with rfl | rfl <;> rfl

theorem place_of_climbs {s : Segment} (h : Climbs s) :
    place slots s = retract (rooted slots) ++ [.fixed []] := by
  have hplain := h.not_isDots
  obtain ⟨text, rfl, -, hkept⟩ := h
  rw [place, if_neg (isDots_literal.not.mp hplain), if_pos hkept]

/-- What one more segment of the template does to the slots. -/
theorem place_cases (slots : List Slot) (s : Segment) :
    (∃ name, s = .placeholder name ∧ place slots s = rooted slots ++ [.value name])
      ∨ (IsDots s ∧ place slots s = slots)
      ∨ (Climbs s ∧ place slots s = retract (rooted slots) ++ [.fixed []])
      ∨ ∃ chars, place slots s = rooted slots ++ [.fixed chars] := by
  cases s with
  | placeholder name => exact .inl ⟨name, rfl, rfl⟩
  | literal text =>
    by_cases hdots : IsDots (.literal text)
    · exact .inr (.inl ⟨hdots, place_of_isDots hdots⟩)
    by_cases hkept : Url.kept text.toList = ['.', '.']
    · have hclimbs : Climbs (.literal text) := ⟨text, rfl, fun h => hdots (.inr (h ▸ rfl)), hkept⟩
      exact .inr (.inr (.inl ⟨hclimbs, place_of_climbs hclimbs⟩))
    · refine .inr (.inr (.inr ?_))
      rw [place, if_neg (isDots_literal.not.mp hdots), if_neg hkept]
      split
      · exact ⟨_, rfl⟩
      · exact ⟨_, rfl⟩

/-! ### Places of values -/

theorem value_mem_rooted {name : String} : .value name ∈ rooted slots ↔ .value name ∈ slots := by
  rw [rooted]
  split
  · next h => simp [h]
  · rfl

theorem getLast?_of_rooted {slot : Slot} (h : (rooted slots).getLast? = some slot) :
    slots.getLast? = some slot := by
  rw [rooted] at h
  split at h
  · cases h
  · exact h

theorem retract_subset : retract slots ⊆ slots := by
  rw [retract]
  split
  · split
    · exact List.Subset.refl _
    · exact List.dropLast_subset _
  · exact List.dropLast_subset _

/-- A value that is not last stays. -/
theorem value_mem_retract {name : String} (hmem : .value name ∈ slots)
    (hlast : slots.getLast? ≠ some (.value name)) : .value name ∈ retract slots := by
  have hinit : .value name ∈ slots.dropLast := by
    obtain rfl | ⟨init, last, rfl⟩ := List.eq_nil_or_concat' slots
    · exact absurd hmem List.not_mem_nil
    · rw [List.dropLast_concat]
      rcases List.mem_append.mp hmem with h | h
      · exact h
      · rw [List.getLast?_concat] at hlast
        exact absurd (congrArg some (List.mem_singleton.mp h).symm) hlast
  rw [retract]
  split
  · split
    · exact hmem
    · exact hinit
  · exact hinit

/-- A value that comes in belongs to a placeholder. -/
theorem value_mem_place {name : String} {s : Segment} (h : .value name ∈ place slots s) :
    .value name ∈ slots ∨ s = .placeholder name := by
  rcases place_cases slots s with ⟨n, rfl, hplace⟩ | ⟨-, hplace⟩ | ⟨-, hplace⟩ | ⟨chars, hplace⟩
  · rw [hplace, List.mem_append, value_mem_rooted] at h
    rcases h with h | h
    · exact .inl h
    · cases List.mem_singleton.mp h
      exact .inr rfl
  · exact .inl (hplace ▸ h)
  · rw [hplace, List.mem_append] at h
    rcases h with h | h
    · exact .inl (value_mem_rooted.mp (retract_subset h))
    · cases List.mem_singleton.mp h
  · rw [hplace, List.mem_append, value_mem_rooted] at h
    rcases h with h | h
    · exact .inl h
    · cases List.mem_singleton.mp h

theorem value_mem_foldl_place {name : String} (h : .value name ∈ segments.foldl place slots) :
    .value name ∈ slots ∨ .placeholder name ∈ segments := by
  induction segments generalizing slots with
  | nil => exact .inl h
  | cons s rest ih =>
    rcases ih h with h | h
    · rcases value_mem_place h with h | rfl
      · exact .inl h
      · exact .inr List.mem_cons_self
    · exact .inr (List.mem_cons_of_mem _ h)

theorem placeholder_of_value_mem {name : String} (h : .value name ∈ layout base segments) :
    .placeholder name ∈ segments := by
  rcases value_mem_foldl_place h with h | h
  · obtain ⟨_, -, h⟩ := List.mem_map.mp h
    cases h
  · exact h

/-- A value is last only right behind its placeholder, plain dots apart. -/
theorem of_getLast?_layout {name : String}
    (h : (layout base segments).getLast? = some (.value name)) :
    ∃ before dots, segments = before ++ .placeholder name :: dots ∧ ∀ d ∈ dots, IsDots d := by
  induction segments using List.reverseRecOn with
  | nil =>
    have hmem := List.mem_of_getLast? h
    obtain ⟨_, -, h⟩ := List.mem_map.mp hmem
    cases h
  | append_singleton segments s ih =>
    rw [layout_snoc] at h
    rcases place_cases (layout base segments) s with
      ⟨n, rfl, hplace⟩ | ⟨hdots, hplace⟩ | ⟨-, hplace⟩ | ⟨chars, hplace⟩
    · rw [hplace, List.getLast?_concat] at h
      cases h
      exact ⟨segments, [], rfl, fun d hd => absurd hd List.not_mem_nil⟩
    · rw [hplace] at h
      -- plain dots leave the slots as they are, so the placeholder is further back
      obtain ⟨before, dots, rfl, hall⟩ := ih h
      refine ⟨before, dots ++ [s], by simp, fun d hd => ?_⟩
      rcases List.mem_append.mp hd with hd | hd
      · exact hall d hd
      · exact List.mem_singleton.mp hd ▸ hdots
    · rw [hplace, List.getLast?_concat] at h
      cases h
    · rw [hplace, List.getLast?_concat] at h
      cases h

/-! ### Placeholders that lose their place -/

/-- Behind a placeholder, plain dots apart, comes a literal that is two dots, but not plainly. -/
def TakesBack (segments : List Segment) : Prop :=
  ∃ before name dots climb after,
    segments = before ++ .placeholder name :: (dots ++ climb :: after)
      ∧ (∀ d ∈ dots, IsDots d) ∧ Climbs climb

theorem TakesBack.append (h : TakesBack segments) (more : List Segment) :
    TakesBack (segments ++ more) := by
  obtain ⟨before, name, dots, climb, after, rfl, hdots, hclimb⟩ := h
  exact ⟨before, name, dots, climb, after ++ more, by simp, hdots, hclimb⟩

/-- A segment that climbs off a value takes it back. -/
theorem takesBack_of_getLast? {name : String} {s : Segment} (hclimbs : Climbs s)
    (h : (layout base segments).getLast? = some (.value name)) : TakesBack (segments ++ [s]) := by
  obtain ⟨before, dots, rfl, hdots⟩ := of_getLast?_layout h
  exact ⟨before, name, dots, s, [], by simp, hdots, hclimbs⟩

/-- Every placeholder keeps its place if no literal takes one back. -/
theorem value_mem_layout (h : ¬ TakesBack segments) {name : String}
    (hname : .placeholder name ∈ segments) : .value name ∈ layout base segments := by
  induction segments using List.reverseRecOn with
  | nil => exact absurd hname List.not_mem_nil
  | append_singleton segments s ih =>
    have hkeep : .placeholder name ∈ segments → .value name ∈ layout base segments :=
      ih fun hback => h (hback.append [s])
    rw [layout_snoc]
    rcases List.mem_append.mp hname with hname | hname
    · rcases place_cases (layout base segments) s with
        ⟨n, -, hplace⟩ | ⟨-, hplace⟩ | ⟨hclimbs, hplace⟩ | ⟨chars, hplace⟩
      · rw [hplace]
        exact List.mem_append_left _ (value_mem_rooted.mpr (hkeep hname))
      · rw [hplace]
        exact hkeep hname
      · rw [hplace]
        -- the climb takes the last slot, and no value stands there
        refine List.mem_append_left _ (value_mem_retract (value_mem_rooted.mpr (hkeep hname)) ?_)
        intro hlast
        exact h (takesBack_of_getLast? hclimbs (getLast?_of_rooted hlast))
      · rw [hplace]
        exact List.mem_append_left _ (value_mem_rooted.mpr (hkeep hname))
    · rw [← List.mem_singleton.mp hname]
      exact List.mem_append_right _ List.mem_cons_self

theorem rooted_concat_value (slots : List Slot) (name : String) :
    rooted (slots ++ [.value name]) = slots ++ [.value name] := by
  rw [rooted, if_neg]
  intro h
  have hmem : Slot.value name ∈ [Slot.fixed []] := h ▸ List.mem_append_right _ List.mem_cons_self
  cases List.mem_singleton.mp hmem

theorem foldl_place_of_isDots {dots : List Segment} (h : ∀ d ∈ dots, IsDots d) :
    dots.foldl place slots = slots := by
  induction dots with
  | nil => rfl
  | cons d dots ih =>
    rw [List.foldl_cons, place_of_isDots (h d List.mem_cons_self)]
    exact ih fun d hd => h d (List.mem_cons_of_mem _ hd)

/-- A placeholder loses its place if a literal takes one back. -/
theorem exists_value_not_mem_layout (h : TakesBack segments)
    (hnodup : (segments.filterMap Segment.name?).Nodup) :
    ∃ name, .placeholder name ∈ segments ∧ .value name ∉ layout base segments := by
  obtain ⟨before, name, dots, climb, after, rfl, hdots, hclimb⟩ := h
  refine ⟨name, by simp, fun hmem => ?_⟩
  have honce : .placeholder name ∉ before ∧ .placeholder name ∉ after := by
    have hown : (Segment.placeholder name).name? = some name := rfl
    rw [List.filterMap_append, List.filterMap_cons_some hown, List.nodup_middle, List.nodup_cons,
      ← List.filterMap_append, PathTemplate.mem_filterMap_name?] at hnodup
    refine ⟨fun h => hnodup.1 ?_, fun h => hnodup.1 ?_⟩
    · exact List.mem_append_left _ h
    · exact List.mem_append_right _ (List.mem_append_right _ (List.mem_cons_of_mem _ h))
  -- The climb leaves the slots as they were before the placeholder, whose name never comes again.
  rw [layout_append, List.foldl_cons, List.foldl_append, foldl_place_of_isDots hdots,
    List.foldl_cons, place_of_climbs hclimb, place, rooted_concat_value] at hmem
  have hretract : retract (rooted (layout base before) ++ [.value name])
      = rooted (layout base before) := by
    simp [retract]
  rw [hretract] at hmem
  rcases value_mem_foldl_place hmem with hmem | hmem
  · rcases List.mem_append.mp hmem with hmem | hmem
    · exact honce.1 (placeholder_of_value_mem (value_mem_rooted.mp hmem))
    · cases List.mem_singleton.mp hmem
  · exact honce.2 hmem

/-! ### Filling in -/

theorem map_fill_rooted (hfill : ∀ name, .value name ∈ slots → (Slot.value name).fill values ≠ []) :
    (rooted slots).map (Slot.fill values) = Url.rooted (slots.map (Slot.fill values)) := by
  have hroot : slots.map (Slot.fill values) = [[]] ↔ slots = [.fixed []] := by
    constructor
    · intro h
      obtain ⟨slot, rfl, hslot⟩ := List.map_eq_singleton_iff.mp h
      cases slot with
      | fixed chars => rw [← hslot, Slot.fill]
      | value name => exact absurd hslot (hfill name List.mem_cons_self)
    · rintro rfl
      rfl
  rw [rooted, Url.rooted, if_congr hroot rfl rfl]
  split <;> rfl

theorem map_fill_retract
    (hdrive : ∀ name, slots.getLast? = some (.value name) →
      Url.isDrive ((Slot.value name).fill values) = false) :
    (retract slots).map (Slot.fill values) = Url.dropSegment (slots.map (Slot.fill values)) := by
  rw [retract, Url.dropSegment, List.getLast?_map]
  -- a drive that is last is not taken back, and no value names one
  cases hlast : slots.getLast? with
  | none =>
    rw [List.getLast?_eq_none_iff.mp hlast]
    rfl
  | some slot =>
    cases slot with
    | fixed chars =>
      dsimp only [Option.map_some, Slot.fill]
      split
      · rfl
      · exact List.map_dropLast
    | value name =>
      dsimp only [Option.map_some]
      rw [hdrive name hlast]
      exact List.map_dropLast

/-- A value that stands in the path as it is: it is not refused, and no character of it is left out. -/
structure Fit (value : String) : Prop where
  usable : PathTemplate.isUnusable value = false
  kept : Url.kept value.toList = value.toList

theorem Fit.fill_ne_nil {name : String} (h : Fit (valueOf values name)) :
    (Slot.value name).fill values ≠ [] := by
  intro hnil
  have hempty : (valueOf values name).toList = [] :=
    Percent.encode_inSpecialSegment_injective hnil
  have husable := h.usable
  rw [String.toList_eq_nil_iff.mp hempty] at husable
  cases husable

theorem Fit.pushSegment {value : String} (h : Fit value) (items : List (List Char)) :
    Url.pushSegment .web items value.toList
      = Url.rooted items ++ [Percent.encode Percent.inSpecialSegment value.toList] := by
  have husable := h.usable
  simp only [PathTemplate.isUnusable, Bool.or_eq_false_iff, beq_eq_false_iff_ne] at husable
  obtain ⟨⟨-, hone⟩, htwo⟩ := husable
  apply Url.pushSegment_of_clean h.kept
  · exact fun hdot => hone (String.toList_inj.mp hdot)
  · exact fun hdots => htwo (String.toList_inj.mp hdots)

/-- A step of the layout is a step of the path. -/
theorem map_fill_place {s : Segment}
    (hslots : ∀ name, .value name ∈ slots → (Slot.value name).fill values ≠ [])
    (hs : ∀ name ∈ s.name?, Fit (valueOf values name))
    (hdrive : Climbs s → ∀ name, slots.getLast? = some (.value name) →
      Url.isDrive ((Slot.value name).fill values) = false) :
    (place slots s).map (Slot.fill values)
      = Url.pushSegment .web (slots.map (Slot.fill values)) (s.fill values).toList := by
  cases s with
  | placeholder name =>
    rw [place, List.map_append, map_fill_rooted hslots, Segment.fill, (hs name rfl).pushSegment]
    rfl
  | literal text =>
    rw [place, Segment.fill, Url.pushSegment_web]
    by_cases hplain : text.toList = ['.'] ∨ text.toList = ['.', '.']
    · rw [if_pos hplain, if_pos hplain]
    rw [if_neg hplain, if_neg hplain]
    -- two dots around a skipped character climb, and leave an empty segment
    by_cases htwo : Url.kept text.toList = ['.', '.']
    · have hclimbs : Climbs (.literal text) :=
        ⟨text, rfl, fun h => hplain (.inr (by rw [h]; rfl)), htwo⟩
      have hretract := map_fill_retract fun name hlast =>
        hdrive hclimbs name (getLast?_of_rooted hlast)
      rw [if_pos htwo, if_pos htwo, List.map_append, hretract, map_fill_rooted hslots]
      rfl
    rw [if_neg htwo, if_neg htwo]
    split
    · rw [List.map_append, map_fill_rooted hslots]
      rfl
    · rw [List.map_append, map_fill_rooted hslots]
      rfl

/-- The path of a call is the layout with the values filled in. -/
theorem map_fill_layout (hfit : ∀ name, .placeholder name ∈ segments → Fit (valueOf values name))
    (hdrive : TakesBack segments → ∀ name, .placeholder name ∈ segments →
      Url.isDrive ((Slot.value name).fill values) = false) :
    (layout base segments).map (Slot.fill values)
      = (segments.map fun s => (s.fill values).toList).foldl (Url.pushSegment .web) base := by
  -- From the end: whether a segment takes a value back depends on all the segments before it.
  induction segments using List.reverseRecOn with
  | nil =>
    rw [layout, List.foldl_nil, List.map_map]
    exact List.map_id base
  | append_singleton segments s ih =>
    have hbefore : ∀ name, .placeholder name ∈ segments → .placeholder name ∈ segments ++ [s] :=
      fun name h => List.mem_append_left _ h
    have hstart := ih (fun name h => hfit name (hbefore name h))
      (fun hback name h => hdrive (hback.append [s]) name (hbefore name h))
    rw [layout_snoc, List.map_append, List.foldl_append, ← hstart]
    apply map_fill_place
    · exact fun name h => (hfit name (hbefore name (placeholder_of_value_mem h))).fill_ne_nil
    · intro name hname
      have hown : name ∈ [s].filterMap Segment.name? :=
        List.mem_filterMap.mpr ⟨s, List.mem_cons_self, hname⟩
      exact hfit name (List.mem_append_right _ (PathTemplate.mem_filterMap_name?.mp hown))
    · intro hclimbs name hlast
      exact hdrive (takesBack_of_getLast? hclimbs hlast) name
        (hbefore name (placeholder_of_value_mem (List.mem_of_getLast? hlast)))

end Layout

end ServiceCall
