import ServiceCall.Proofs.Except

/-!
# The first item of a kind

The item of a list that is of a kind while no item before it is. A step for each item that fails tells
the fault of the first item at which the step fails.
-/

namespace ServiceCall

variable {α β ε : Type} {P : α → Prop} {x y : α} {xs : List α}

/-- The item is of the kind, and no item before it is. -/
def IsFirst (P : α → Prop) (xs : List α) (x : α) : Prop :=
  ∃ before after, xs = before ++ x :: after ∧ (∀ b ∈ before, ¬ P b) ∧ P x

/-- The step has no result for the item. -/
def Fails (f : α → Except ε β) (x : α) : Prop := ∃ e, f x = .error e

theorem not_isFirst_nil : ¬ IsFirst P [] x := by
  rintro ⟨before, after, heq, -⟩
  exact List.append_ne_nil_of_right_ne_nil before (List.cons_ne_nil x after) heq.symm

theorem isFirst_cons_of_pos (h : P x) : IsFirst P (x :: xs) y ↔ y = x := by
  constructor
  · rintro ⟨_ | ⟨b, before⟩, after, heq, hbefore, -⟩
    · exact (List.cons.inj heq).1.symm
    · obtain ⟨rfl, -⟩ := List.cons.inj heq
      exact absurd h (hbefore x List.mem_cons_self)
  · rintro rfl
    exact ⟨[], xs, rfl, fun _ hb => absurd hb List.not_mem_nil, h⟩

theorem isFirst_cons_of_neg (h : ¬ P x) : IsFirst P (x :: xs) y ↔ IsFirst P xs y := by
  constructor
  · rintro ⟨_ | ⟨b, before⟩, after, heq, hbefore, hy⟩
    · obtain ⟨rfl, -⟩ := List.cons.inj heq
      exact absurd hy h
    · obtain ⟨rfl, rfl⟩ := List.cons.inj heq
      exact ⟨before, after, rfl, fun c hc => hbefore c (List.mem_cons_of_mem _ hc), hy⟩
  · rintro ⟨before, after, rfl, hbefore, hy⟩
    exact ⟨x :: before, after, rfl, List.forall_mem_cons.mpr ⟨h, hbefore⟩, hy⟩

theorem isFirst_congr {Q : α → Prop} (h : ∀ z, P z ↔ Q z) : IsFirst P xs x ↔ IsFirst Q xs x := by
  simp only [IsFirst, h]

theorem isFirst_map {f : β → α} {ys : List β} :
    IsFirst P (ys.map f) x ↔ ∃ y, IsFirst (fun y => P (f y)) ys y ∧ f y = x := by
  induction ys with
  | nil => simp [not_isFirst_nil]
  | cons y ys ih =>
    rw [List.map_cons]
    by_cases hy : P (f y)
    · simp [isFirst_cons_of_pos (P := P) hy, isFirst_cons_of_pos (P := fun y => P (f y)) hy, eq_comm]
    · simp [isFirst_cons_of_neg (P := P) hy, isFirst_cons_of_neg (P := fun y => P (f y)) hy, ih]

theorem IsFirst.mem (h : IsFirst P xs x) : x ∈ xs := by
  obtain ⟨before, after, rfl, -⟩ := h
  exact List.mem_append_right before List.mem_cons_self

/-- Where there is an item of the kind there is a first one. -/
theorem exists_isFirst (h : ∃ x ∈ xs, P x) : ∃ x, IsFirst P xs x := by
  induction xs with
  | nil =>
    obtain ⟨x, hx, -⟩ := h
    cases hx
  | cons x xs ih =>
    by_cases hx : P x
    · exact ⟨x, (isFirst_cons_of_pos hx).mpr rfl⟩
    · obtain ⟨y, hy, hPy⟩ := h
      rcases List.mem_cons.mp hy with rfl | hy
      · exact absurd hPy hx
      · obtain ⟨z, hz⟩ := ih ⟨y, hy, hPy⟩
        exact ⟨z, (isFirst_cons_of_neg hx).mpr hz⟩

/-- A step for each item fails as it does at the first item at which it fails. -/
theorem mapM_eq_error_iff {f : α → Except ε β} {e : ε} :
    xs.mapM f = .error e ↔ ∃ x, IsFirst (Fails f) xs x ∧ f x = .error e := by
  induction xs with
  | nil =>
    rw [List.mapM_nil]
    constructor
    · intro h
      cases h
    · rintro ⟨x, hx, -⟩
      exact absurd hx not_isFirst_nil
  | cons x xs ih =>
    rw [List.mapM_cons, bind_eq_error]
    cases hx : f x with
    | error fault =>
      have hfails : Fails f x := ⟨fault, hx⟩
      simp [isFirst_cons_of_pos hfails, hx]
    | ok y =>
      have hpasses : ¬ Fails f x := by simp [Fails, hx]
      simp only [isFirst_cons_of_neg hpasses, ← ih, bind_eq_error]
      simp [pure, Except.pure]

theorem exists_of_mapM_eq_error {f : α → Except ε β} {e : ε} (h : xs.mapM f = .error e) :
    ∃ x ∈ xs, f x = .error e := by
  obtain ⟨x, hfirst, hx⟩ := mapM_eq_error_iff.mp h
  exact ⟨x, hfirst.mem, hx⟩

end ServiceCall
