import Mathlib.Data.List.Forall2
import Mathlib.Data.List.Induction
import ServiceCall.Proofs.Url.Path

/-!
# Texts that keep their place in a path

Texts are added to the path of a web address one after the other. Each becomes a segment of its own that
spells it, behind those that were there, just if none of them is plain dots or holds a tab or line
break, and none comes behind a path that is a single empty segment.
-/

namespace ServiceCall.Url

variable {items texts : List (List Char)}

/-! ### Segments and their texts -/

/-- The segment without its escapes is the text. -/
def Spells (segment text : List Char) : Prop :=
  Percent.decode segment = text.flatMap String.utf8EncodeChar

theorem spells_encode (text : List Char) :
    Spells (Percent.encode Percent.inSpecialSegment text) text :=
  Percent.decode_encode rfl text

theorem spells_map_encode (texts : List (List Char)) :
    List.Forall₂ Spells (texts.map (Percent.encode Percent.inSpecialSegment)) texts := by
  rw [List.forall₂_map_left_iff, List.forall₂_same]
  exact fun text _ => spells_encode text

theorem spells_rightUnique : Relator.RightUnique Spells := by
  intro segment text other h hother
  exact Percent.utf8_injective (h.symm.trans hother)

/-- Only an empty segment spells the empty text. -/
theorem Spells.eq_nil_iff {segment text : List Char} (h : Spells segment text) :
    segment = [] ↔ text = [] := by
  constructor
  · rintro rfl
    exact Percent.utf8_injective h.symm
  · rintro rfl
    exact Percent.eq_nil_of_decode h

/-- Whether a path is a single empty segment can be told from the texts that were added to it. -/
theorem append_eq_root_iff {base tail : List (List Char)} (h : List.Forall₂ Spells tail texts) :
    base ++ tail = [[]] ↔ base ++ texts = [[]] := by
  have hroot : tail = [[]] ↔ texts = [[]] := by
    cases h with
    | nil => rfl
    | cons hhead hrest =>
      rw [List.cons_eq_cons, List.cons_eq_cons, hhead.eq_nil_iff]
      refine and_congr_right fun _ => ?_
      rw [← List.length_eq_zero_iff, ← List.length_eq_zero_iff, hrest.length_eq]
  have hnil : tail = [] ↔ texts = [] := by
    rw [← List.length_eq_zero_iff, ← List.length_eq_zero_iff, h.length_eq]
  rw [List.append_eq_singleton_iff, List.append_eq_singleton_iff, hroot, hnil]

/-! ### Roots -/

/-- The segments without an empty one at the end. -/
def trimmed (items : List (List Char)) : List (List Char) :=
  if items.getLast? = some [] then items.dropLast else items

theorem rooted_of_ne (h : items ≠ [[]]) : rooted items = items := if_neg h

theorem rooted_ne (items : List (List Char)) : rooted items ≠ [[]] := by
  rw [rooted]
  split
  · exact (List.cons_ne_nil _ _).symm
  · next h => exact h

theorem length_rooted_le (items : List (List Char)) : (rooted items).length ≤ items.length := by
  rw [rooted]
  split
  · exact Nat.zero_le _
  · exact Nat.le_refl _

/-- A path that segments are added to starts without its empty end, the one of a bare root included. -/
theorem rooted_dropEmptyEnd (hne : items ≠ []) : rooted (dropEmptyEnd items) = rooted (trimmed items) := by
  rw [dropEmptyEnd, trimmed]
  by_cases hlast : items.getLast? = some []
  · by_cases hlong : 1 < items.length
    · rw [if_pos ⟨hlong, hlast⟩, if_pos hlast]
    · have hpos : 0 < items.length := List.length_pos_iff.mpr hne
      obtain ⟨s, rfl⟩ := List.length_eq_one_iff.mp (show items.length = 1 by omega)
      cases hlast
      rfl
  · rw [if_neg fun h => hlast h.2, if_neg hlast]

/-! ### Adding texts -/

/-- The path behind texts that were added to it. -/
def extended (items texts : List (List Char)) : List (List Char) :=
  texts.foldl (pushSegment .web) (dropEmptyEnd items)

theorem extended_concat (items texts : List (List Char)) (s : List Char) :
    extended items (texts ++ [s]) = pushSegment .web (extended items texts) s := by
  rw [extended, List.foldl_append]
  rfl

theorem length_dropSegment_le (items : List (List Char)) :
    (dropSegment items).length ≤ items.length := by
  rw [dropSegment]
  split
  · split
    · exact Nat.le_refl _
    · rw [List.length_dropLast]
      exact Nat.sub_le _ _
  · exact Nat.le_refl _

/-- A text makes a path longer by one segment at most. -/
theorem length_rooted_pushSegment_le (items : List (List Char)) (s : List Char) :
    (rooted (pushSegment .web items s)).length ≤ (rooted items).length + 1 := by
  rw [pushSegment_web]
  split
  · exact Nat.le_succ _
  refine Nat.le_trans (length_rooted_le _) ?_
  split
  · rw [List.length_append]
    exact Nat.add_le_add_right (length_dropSegment_le _) 1
  split
  · rw [List.length_append]
    exact Nat.le_refl _
  · rw [List.length_append]
    exact Nat.le_refl _

theorem length_rooted_extended_le (hne : items ≠ []) (texts : List (List Char)) :
    (rooted (extended items texts)).length ≤ (trimmed items).length + texts.length := by
  induction texts using List.reverseRecOn with
  | nil =>
    rw [extended, List.foldl_nil, rooted_dropEmptyEnd hne]
    exact length_rooted_le _
  | append_singleton texts s ih =>
    rw [extended_concat, List.length_append, List.length_singleton]
    exact Nat.le_trans (length_rooted_pushSegment_le _ s) (Nat.add_le_add_right ih 1)

/-! ### Texts that stay -/

/-- The text is no plain dots, and no character of it is left out. -/
structure Stays (s : List Char) : Prop where
  notDot : s ≠ ['.']
  notDots : s ≠ ['.', '.']
  kept : kept s = s

/-- Every text stays, and none is added to a path that is a single empty segment. -/
def AllStay (base texts : List (List Char)) : Prop :=
  ∀ before s after, texts = before ++ s :: after → Stays s ∧ base ++ before ≠ [[]]

theorem allStay_nil (base : List (List Char)) : AllStay base [] := by
  intro before s after h
  exact absurd h.symm (List.append_ne_nil_of_right_ne_nil before (List.cons_ne_nil s after))

theorem allStay_concat_iff {base : List (List Char)} {s : List Char} :
    AllStay base (texts ++ [s]) ↔ AllStay base texts ∧ Stays s ∧ base ++ texts ≠ [[]] := by
  constructor
  · intro h
    refine ⟨fun before t after hsplit => h before t (after ++ [s]) (by simp [hsplit]), ?_⟩
    exact h texts s [] rfl
  · rintro ⟨htexts, hs⟩ before t after hsplit
    obtain rfl | ⟨after, last, rfl⟩ := List.eq_nil_or_concat' after
    · obtain ⟨rfl, hlast⟩ := List.append_inj' hsplit rfl
      cases hlast
      exact hs
    · rw [← List.cons_append, ← List.append_assoc] at hsplit
      obtain ⟨rfl, -⟩ := List.append_inj' hsplit rfl
      exact htexts before t after rfl

/-- Texts that stay are found behind the path, the last one always. -/
theorem extended_concat_of_allStay (hne : items ≠ []) {s : List Char}
    (h : AllStay (trimmed items) (texts ++ [s])) : extended items (texts ++ [s])
      = trimmed items ++ (texts ++ [s]).map (Percent.encode Percent.inSpecialSegment) := by
  induction texts using List.reverseRecOn generalizing s with
  | nil =>
    obtain ⟨-, hs, hroot⟩ := allStay_concat_iff.mp h
    rw [List.append_nil] at hroot
    rw [extended_concat, pushSegment_of_clean hs.kept hs.notDot hs.notDots, extended, List.foldl_nil,
      rooted_dropEmptyEnd hne, rooted_of_ne hroot]
    rfl
  | append_singleton texts t ih =>
    obtain ⟨hbefore, hs, hroot⟩ := allStay_concat_iff.mp h
    have hextended : extended items (texts ++ [t]) ≠ [[]] := by
      rw [ih hbefore, ne_eq, append_eq_root_iff (spells_map_encode _)]
      exact hroot
    rw [extended_concat, pushSegment_of_clean hs.kept hs.notDot hs.notDots, rooted_of_ne hextended,
      ih hbefore]
    simp only [List.map_append, List.map_cons, List.map_nil, List.append_assoc]

theorem exists_of_forall₂_concat {tail : List (List Char)} {s : List Char}
    (h : List.Forall₂ Spells tail (texts ++ [s])) :
    ∃ before last, tail = before ++ [last] ∧ List.Forall₂ Spells before texts ∧ Spells last s := by
  obtain ⟨last, none, hlast, hnone, hdrop⟩ :=
    List.forall₂_cons_right_iff.mp (List.forall₂_drop_append tail texts [s] h)
  rw [List.forall₂_nil_right_iff.mp hnone] at hdrop
  refine ⟨tail.take texts.length, last, ?_, List.forall₂_take_append tail texts [s] h, hlast⟩
  rw [← hdrop, List.take_append_drop]

/-- Texts that are found behind the path stay. -/
theorem allStay_of_extended (hne : items ≠ []) {tail : List (List Char)}
    (hspells : List.Forall₂ Spells tail texts) (h : extended items texts = trimmed items ++ tail) :
    AllStay (trimmed items) texts := by
  induction texts using List.reverseRecOn generalizing tail with
  | nil => exact allStay_nil _
  | append_singleton texts s ih =>
    obtain ⟨before, last, rfl, hbefore, hlast⟩ := exists_of_forall₂_concat hspells
    rw [extended_concat, ← List.append_assoc, pushSegment_web] at h
    split at h
    · next hdots =>
      -- The dots have left the path as it was, which is too short to have a segment for them.
      have hs : last ≠ [] := by
        rw [ne_eq, hlast.eq_nil_iff]
        rcases hdots with rfl | rfl <;> exact List.cons_ne_nil _ _
      have hroot : extended items texts ≠ [[]] := by
        intro hroot
        rw [h, List.append_eq_singleton_iff] at hroot
        rcases hroot with ⟨-, hroot⟩ | ⟨-, hroot⟩
        · cases hroot
          exact hs rfl
        · cases hroot
      have hlength := length_rooted_extended_le hne texts
      rw [rooted_of_ne hroot, h, List.length_append, List.length_append, hbefore.length_eq,
        List.length_singleton] at hlength
      omega
    next hdots =>
    -- dots that come out of a longer text leave an empty segment, which spells the empty text only
    have hempty : last = [] → kept s = [] := by
      intro hnil
      rw [hlast.eq_nil_iff.mp hnil]
      rfl
    split at h
    · next hclimbs =>
      obtain ⟨-, hlast⟩ := List.append_inj' h rfl
      cases hlast
      exact absurd (hclimbs.symm.trans (hempty rfl)) (List.cons_ne_nil _ _)
    split at h
    · next hstops =>
      obtain ⟨-, hlast⟩ := List.append_inj' h rfl
      cases hlast
      exact absurd (hstops.symm.trans (hempty rfl)) (List.cons_ne_nil _ _)
    · obtain ⟨hrooted, hsegment⟩ := List.append_inj' h rfl
      cases hsegment
      rw [not_or] at hdots
      have hkept : kept s = s := spells_rightUnique (spells_encode (kept s)) hlast
      refine allStay_concat_iff.mpr ⟨?_, ⟨hdots.1, hdots.2, hkept⟩, ?_⟩
      · by_cases hroot : extended items texts = [[]]
        · rw [hroot] at hrooted
          obtain ⟨-, rfl⟩ := List.append_eq_nil_iff.mp hrooted.symm
          rw [List.forall₂_nil_left_iff.mp hbefore]
          exact allStay_nil _
        · exact ih hbefore ((rooted_of_ne hroot).symm.trans hrooted)
      · rw [ne_eq, ← append_eq_root_iff hbefore, ← hrooted]
        exact rooted_ne _

/-- Texts are found behind the path, in their order, just if all of them stay. -/
theorem extended_iff (hne : items ≠ []) (htexts : texts ≠ []) :
    (∃ tail, extended items texts = trimmed items ++ tail ∧ List.Forall₂ Spells tail texts)
      ↔ AllStay (trimmed items) texts := by
  constructor
  · rintro ⟨tail, h, hspells⟩
    exact allStay_of_extended hne hspells h
  · intro h
    obtain rfl | ⟨texts, s, rfl⟩ := List.eq_nil_or_concat' texts
    · exact absurd rfl htexts
    · exact ⟨_, extended_concat_of_allStay hne h, spells_map_encode _⟩

end ServiceCall.Url
