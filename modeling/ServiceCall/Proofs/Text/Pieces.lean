import Mathlib.Data.List.Basic
import ServiceCall.Text.Cut

/-!
# Pieces of a text

Which characters the pieces between separators hold, and which the text has that is made of pieces.
-/

namespace ServiceCall

variable {α : Type} [BEq α] [LawfulBEq α]

/-- No piece holds the separator. -/
theorem not_mem_of_mem_splitOn {a : α} {xs piece : List α} (h : piece ∈ xs.splitOn a) :
    a ∉ piece := by
  induction xs generalizing piece with
  | nil =>
    rw [List.splitOn_nil, List.mem_singleton] at h
    rw [h]
    exact List.not_mem_nil
  | cons x xs ih =>
    rw [List.splitOn_cons_eq_if_modifyHead] at h
    split at h
    · rcases List.mem_cons.mp h with rfl | h
      · exact List.not_mem_nil
      · exact ih h
    · next hx =>
      obtain ⟨first, rest, heq⟩ := List.exists_cons_of_ne_nil (List.splitOn_ne_nil a xs)
      rw [heq, List.modifyHead_cons] at h
      rcases List.mem_cons.mp h with rfl | h
      · have hfirst : a ∉ first := ih (heq ▸ List.mem_cons_self)
        rw [beq_iff_eq] at hx
        rw [List.mem_cons, not_or]
        exact ⟨fun ha => hx ha.symm, hfirst⟩
      · exact ih (heq ▸ List.mem_cons_of_mem _ h)

omit [BEq α] [LawfulBEq α] in
/-- What stands in a piece stands in the joined pieces. -/
theorem mem_intercalate_of_mem {a : α} {sep piece : List α} {pieces : List (List α)}
    (hpiece : piece ∈ pieces) (h : a ∈ piece) : a ∈ sep.intercalate pieces := by
  induction pieces with
  | nil => cases hpiece
  | cons first pieces ih =>
    cases pieces with
    | nil =>
      rw [List.mem_singleton] at hpiece
      rwa [List.intercalate_singleton, ← hpiece]
    | cons next rest =>
      rw [List.intercalate_cons_cons, List.mem_append]
      rcases List.mem_cons.mp hpiece with rfl | hpiece
      · exact .inl (List.mem_append_left _ h)
      · exact .inr (ih hpiece)

/-- What stands in a piece stands in the text. -/
theorem mem_of_mem_splitOn {a c : α} {xs piece : List α} (hpiece : piece ∈ xs.splitOn a)
    (hc : c ∈ piece) : c ∈ xs := by
  have hjoined : c ∈ [a].intercalate (xs.splitOn a) := mem_intercalate_of_mem hpiece hc
  rwa [List.intercalate_splitOn] at hjoined

omit [BEq α] [LawfulBEq α] in
/-- What stands in joined pieces stands in one of them or in the separator. -/
theorem mem_intercalate {a : α} {sep : List α} {pieces : List (List α)}
    (h : a ∈ sep.intercalate pieces) : a ∈ sep ∨ ∃ piece ∈ pieces, a ∈ piece := by
  induction pieces with
  | nil => cases h
  | cons piece pieces ih =>
    cases pieces with
    | nil => exact .inr ⟨piece, List.mem_cons_self, by rwa [List.intercalate_singleton] at h⟩
    | cons next rest =>
      rw [List.intercalate_cons_cons, List.mem_append, List.mem_append] at h
      rcases h with (h | h) | h
      · exact .inr ⟨piece, List.mem_cons_self, h⟩
      · exact .inl h
      · rcases ih h with h | ⟨p, hp, h⟩
        · exact .inl h
        · exact .inr ⟨p, List.mem_cons_of_mem _ hp, h⟩

omit [BEq α] [LawfulBEq α] in
/-- Pieces with a sign before each are the sign before the pieces joined by it. -/
theorem flatMap_cons_eq_intercalate (a : α) {pieces : List (List α)} (h : pieces ≠ []) :
    pieces.flatMap (fun p => a :: p) = a :: [a].intercalate pieces := by
  induction pieces with
  | nil => exact absurd rfl h
  | cons piece rest ih =>
    cases rest with
    | nil => simp
    | cons next rest =>
      rw [List.flatMap_cons, ih (List.cons_ne_nil next rest), List.intercalate_cons_cons]
      simp

omit [BEq α] [LawfulBEq α] in
/-- Texts that are each read back are read back together. -/
theorem mapM_map_eq_some {β : Type} {write : β → α} {read? : α → Option β} {items : List β}
    (h : ∀ x ∈ items, read? (write x) = some x) : (items.map write).mapM read? = some items := by
  induction items with
  | nil => rfl
  | cons x items ih =>
    obtain ⟨hx, hitems⟩ := List.forall_mem_cons.mp h
    rw [List.map_cons, List.mapM_cons, hx, ih hitems]
    rfl

omit [BEq α] [LawfulBEq α] in
/-- Whatever is read from texts is read from one of them. -/
theorem exists_of_mem_mapM {β : Type} {read? : α → Option β} {texts : List α} {items : List β}
    (h : texts.mapM read? = some items) {x : β} (hx : x ∈ items) :
    ∃ text ∈ texts, read? text = some x := by
  induction texts generalizing items with
  | nil =>
    cases h
    cases hx
  | cons text texts ih =>
    rw [List.mapM_cons] at h
    obtain ⟨first, hfirst, h⟩ := Option.bind_eq_some_iff.mp h
    obtain ⟨rest, hrest, h⟩ := Option.bind_eq_some_iff.mp h
    cases h
    rcases List.mem_cons.mp hx with rfl | hx
    · exact ⟨text, List.mem_cons_self, hfirst⟩
    · obtain ⟨t, ht, hread⟩ := ih hrest hx
      exact ⟨t, List.mem_cons_of_mem _ ht, hread⟩

omit [BEq α] [LawfulBEq α] in
/-- A text whose characters are all kept is kept. -/
theorem flatMap_eq_self {f : α → List α} {xs : List α} (h : ∀ x ∈ xs, f x = [x]) :
    xs.flatMap f = xs := by
  induction xs with
  | nil => rfl
  | cons x xs ih =>
    obtain ⟨hx, hxs⟩ := List.forall_mem_cons.mp h
    rw [List.flatMap_cons, hx, ih hxs, List.singleton_append]

/-! ### Cuts -/

theorem atFirst?_append_cons {mark : Char} {before : List Char} (h : mark ∉ before)
    (behind : List Char) : Cut.atFirst? mark (before ++ mark :: behind) = some (before, behind) := by
  induction before with
  | nil => rw [List.nil_append, Cut.atFirst?, if_pos rfl]
  | cons c before ih =>
    rw [List.mem_cons, not_or] at h
    rw [List.cons_append, Cut.atFirst?, if_neg fun hc => h.1 hc.symm, ih h.2, Option.map_some]

theorem atFirst?_eq_none {mark : Char} {cs : List Char} (h : mark ∉ cs) :
    Cut.atFirst? mark cs = none := by
  induction cs with
  | nil => rfl
  | cons c cs ih =>
    rw [List.mem_cons, not_or] at h
    rw [Cut.atFirst?, if_neg fun hc => h.1 hc.symm, ih h.2, Option.map_none]

theorem eq_of_atFirst? {mark : Char} {cs before behind : List Char}
    (h : Cut.atFirst? mark cs = some (before, behind)) : cs = before ++ mark :: behind := by
  induction cs generalizing before with
  | nil => cases h
  | cons c cs ih =>
    rw [Cut.atFirst?] at h
    split at h
    · next hc =>
      cases h
      rw [hc, List.nil_append]
    · obtain ⟨⟨first, second⟩, hsplit, heq⟩ := Option.map_eq_some_iff.mp h
      cases heq
      rw [ih hsplit, List.cons_append]

theorem atLast?_append_cons {mark : Char} {behind : List Char} (h : mark ∉ behind)
    (before : List Char) : Cut.atLast? mark (before ++ mark :: behind) = some (before, behind) := by
  have hreverse : (before ++ mark :: behind).reverse = behind.reverse ++ mark :: before.reverse := by
    simp
  rw [Cut.atLast?, hreverse, atFirst?_append_cons (by simpa using h), Option.map_some]
  dsimp only
  rw [List.reverse_reverse, List.reverse_reverse]

theorem atLast?_eq_none {mark : Char} {cs : List Char} (h : mark ∉ cs) :
    Cut.atLast? mark cs = none := by
  rw [Cut.atLast?, atFirst?_eq_none (by simpa using h), Option.map_none]

omit [BEq α] [LawfulBEq α] in
/-- The longest opening of a kind ends where the first item of another kind stands. -/
theorem span_append {p : α → Bool} {opening rest : List α} (hopening : ∀ x ∈ opening, p x = true)
    (hrest : ∀ x ∈ rest.head?, p x = false) :
    (opening ++ rest).takeWhile p = opening ∧ (opening ++ rest).dropWhile p = rest := by
  rw [List.takeWhile_append_of_pos hopening, List.dropWhile_append_of_pos hopening]
  cases rest with
  | nil => simp
  | cons x rest => simp [hrest x rfl]

end ServiceCall
