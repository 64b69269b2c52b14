import ServiceCall.Proofs.Shape.Grammar

/-!
# Brackets and commas in type names

The brackets of a type name close in order, and its commas stand inside of them. So a name can be
read over without a change of depth, and the comma behind it is the first one outside brackets.
-/

namespace ServiceCall

namespace Shape

/-- Behind `depth` open brackets, all of which are closed at the end: a bracket closes only what was
opened, and every comma stands inside of brackets. -/
def Enclosed : Nat → List Char → Prop
  | depth, [] => depth = 0
  | depth, c :: rest =>
    if c = '<' then Enclosed (depth + 1) rest
    else if c = '>' then 0 < depth ∧ Enclosed (depth - 1) rest
    else if c = ',' then 0 < depth ∧ Enclosed depth rest
    else Enclosed depth rest

/-- The character is no bracket and no comma. -/
def Inert (c : Char) : Prop := c ≠ '<' ∧ c ≠ '>' ∧ c ≠ ','

theorem Plain.inert {c : Char} (h : Plain c) : Inert c := ⟨h.notOpen, h.notClose, h.notComma⟩

theorem inert_of_blank {c : Char} (h : Blank.isWide c = true) : Inert c := by
  refine ⟨?_, ?_, ?_⟩
  · rintro rfl
    exact absurd h (by decide)
  · rintro rfl
    exact absurd h (by decide)
  · rintro rfl
    exact absurd h (by decide)

theorem enclosed_inert {cs : List Char} (h : ∀ c ∈ cs, Inert c) (depth : Nat) (rest : List Char) :
    Enclosed depth (cs ++ rest) ↔ Enclosed depth rest := by
  induction cs with
  | nil => rfl
  | cons c cs ih =>
    obtain ⟨hopen, hclose, hcomma⟩ := h c List.mem_cons_self
    rw [List.cons_append, Enclosed, if_neg hopen, if_neg hclose, if_neg hcomma]
    exact ih fun d hd => h d (List.mem_cons_of_mem c hd)

theorem enclosed_open (depth : Nat) (rest : List Char) :
    Enclosed depth ('<' :: rest) ↔ Enclosed (depth + 1) rest := by
  rw [Enclosed, if_pos rfl]

theorem enclosed_close (depth : Nat) (rest : List Char) :
    Enclosed (depth + 1) ('>' :: rest) ↔ Enclosed depth rest := by
  rw [Enclosed, if_neg (by decide), if_pos rfl]
  simp

theorem enclosed_comma (depth : Nat) (rest : List Char) :
    Enclosed (depth + 1) (',' :: rest) ↔ Enclosed (depth + 1) rest := by
  rw [Enclosed, if_neg (by decide), if_neg (by decide), if_pos rfl]
  simp

/-- A word, an open bracket, a text that leaves the depth as it is, and a closing bracket. -/
theorem enclosed_bracketed {word inner : List Char} (hword : ∀ c ∈ word, Inert c)
    (hinner : ∀ depth rest, Enclosed (depth + 1) (inner ++ rest) ↔ Enclosed (depth + 1) rest)
    (depth : Nat) (rest : List Char) :
    Enclosed depth (word ++ '<' :: inner ++ ['>'] ++ rest) ↔ Enclosed depth rest := by
  simp only [List.append_assoc, List.cons_append, List.nil_append]
  rw [enclosed_inert hword, enclosed_open, hinner, enclosed_close]

/-- The name of a type can be read over: behind it the depth is what it was before. -/
theorem Derives.enclosed {cs : List Char} {t : Shape} (h : Derives cs t) (depth : Nat)
    (rest : List Char) : Enclosed depth (cs ++ rest) ↔ Enclosed depth rest := by
  have hword {word : List Char} (hid : isIdentifier word = true) : ∀ c ∈ word, Inert c :=
    fun c hc => ((isIdentifier_iff.mp hid).plain c hc).inert
  -- depth and rest are general: the arguments of a type are read over one level deeper
  induction h generalizing depth rest with
  | @blankBefore c cs t blank _ ih =>
    have hblank : ∀ d ∈ [c], Inert d := fun d hd => List.mem_singleton.mp hd ▸ inert_of_blank blank
    exact (enclosed_inert hblank depth (cs ++ rest)).trans (ih depth rest)
  | @blankAfter c cs t blank _ ih =>
    have hblank : ∀ d ∈ [c], Inert d := fun d hd => List.mem_singleton.mp hd ▸ inert_of_blank blank
    rw [List.append_assoc]
    exact (ih depth ([c] ++ rest)).trans (enclosed_inert hblank depth rest)
  | void => exact enclosed_inert (hword (by decide)) depth rest
  | scalar kind => exact enclosed_inert (fun c hc => (plain_of_scalar c hc).inert) depth rest
  | @enumeration name id =>
    have henum : ∀ c ∈ "enum:".toList, Inert c := by simp [Inert]
    rw [List.append_assoc, enclosed_inert henum]
    exact enclosed_inert (fun c hc => (id.plain c hc).inert) depth rest
  | list _ ih =>
    have hlist : ∀ c ∈ "List".toList, Inert c := hword (by decide)
    exact enclosed_bracketed hlist (fun d => ih (d + 1)) depth rest
  | optional _ ih =>
    have hoptional : ∀ c ∈ "Optional".toList, Inert c := hword (by decide)
    exact enclosed_bracketed hoptional (fun d => ih (d + 1)) depth rest
  | @map key value _ _ _ _ ihkey ihvalue =>
    have hinner (d : Nat) (r : List Char) :
        Enclosed (d + 1) ((key ++ ',' :: value) ++ r) ↔ Enclosed (d + 1) r := by
      rw [List.append_assoc, List.cons_append]
      exact (ihkey (d + 1) _).trans ((enclosed_comma d _).trans (ihvalue (d + 1) r))
    have hmap : ∀ c ∈ "Map".toList, Inert c := hword (by decide)
    simpa using enclosed_bracketed hmap hinner depth rest
  | bean id _ _ => exact enclosed_inert (fun c hc => (id.plain c hc).inert) depth rest

theorem Derives.enclosed_zero {cs : List Char} {t : Shape} (h : Derives cs t) : Enclosed 0 cs := by
  have := (h.enclosed 0 []).mpr rfl
  rwa [List.append_nil] at this

/-- The comma behind an enclosed text is the first one outside brackets. -/
theorem splitComma_of_enclosed {depth : Nat} {cs : List Char} (h : Enclosed depth cs)
    (rest : List Char) : splitComma depth (cs ++ ',' :: rest) = some (cs, rest) := by
  induction cs generalizing depth with
  | nil =>
    rw [Enclosed] at h
    subst h
    rfl
  | cons c cs ih =>
    -- a comma at depth zero would end the text too early, but an enclosed text holds none
    have hnot : ¬ (c = ',' ∧ depth = 0) := by
      rintro ⟨rfl, rfl⟩
      simp [Enclosed] at h
    rw [List.cons_append, splitComma, if_neg hnot]
    rw [Enclosed] at h
    split_ifs at h ⊢
    · simp only [ih h, Option.map_some]
    · simp only [ih h.2, Option.map_some]
    · simp only [ih h.2, Option.map_some]
    · simp only [ih h, Option.map_some]

/-- The brackets that are open behind the first part of an enclosed text, counted. -/
theorem depth_of_enclosed {depth : Nat} {p q : List Char} (h : Enclosed depth (p ++ q)) :
    ∃ d, Enclosed d q ∧ d + p.count '>' = depth + p.count '<' := by
  -- the depth is told by a sum on either side, since natural numbers do not go below zero
  induction p generalizing depth with
  | nil => exact ⟨depth, h, rfl⟩
  | cons c p ih =>
    rw [List.cons_append, Enclosed] at h
    split_ifs at h with hopen hclose hcomma
    · obtain ⟨d, hd, hcount⟩ := ih h
      refine ⟨d, hd, ?_⟩
      rw [hopen, List.count_cons_self, List.count_cons_of_ne (by decide), hcount]
      omega
    · obtain ⟨d, hd, hcount⟩ := ih h.2
      refine ⟨d, hd, ?_⟩
      rw [hclose, List.count_cons_self, List.count_cons_of_ne (by decide)]
      omega
    · obtain ⟨d, hd, hcount⟩ := ih h.2
      refine ⟨d, hd, ?_⟩
      rw [List.count_cons_of_ne hopen, List.count_cons_of_ne hclose, hcount]
    · obtain ⟨d, hd, hcount⟩ := ih h
      refine ⟨d, hd, ?_⟩
      rw [List.count_cons_of_ne hopen, List.count_cons_of_ne hclose, hcount]

/-! ### Positions -/

/-- Brackets close in order, and all that were opened are closed. -/
def Balanced (cs : List Char) : Prop :=
  cs.count '>' = cs.count '<' ∧ ∀ p q, cs = p ++ q → p.count '>' ≤ p.count '<'

/-- Every comma stands inside of brackets. -/
def CommasInside (cs : List Char) : Prop :=
  ∀ p q, cs = p ++ ',' :: q → p.count '>' < p.count '<'

theorem Enclosed.balanced {cs : List Char} (h : Enclosed 0 cs) : Balanced cs := by
  refine ⟨?_, ?_⟩
  · obtain ⟨d, hd, hcount⟩ := depth_of_enclosed (q := []) ((List.append_nil cs).symm ▸ h)
    rw [Enclosed] at hd
    omega
  · rintro p q rfl
    obtain ⟨d, -, hcount⟩ := depth_of_enclosed h
    omega

theorem Enclosed.commasInside {cs : List Char} (h : Enclosed 0 cs) : CommasInside cs := by
  rintro p q rfl
  obtain ⟨d, hd, hcount⟩ := depth_of_enclosed h
  have hpos : 0 < d := by
    simp only [Enclosed] at hd
    exact hd.1
  omega

/-! ### Counting -/

/-- How many types of a shape have their arguments in brackets. -/
def containers : Shape → Nat
  | .list item | .optional item => item.containers + 1
  | .map key value => key.containers + value.containers + 1
  | _ => 0

/-- How many maps a shape has. -/
def maps : Shape → Nat
  | .list item | .optional item => item.maps
  | .map key value => key.maps + value.maps + 1
  | _ => 0

theorem count_inert {cs : List Char} (h : ∀ c ∈ cs, Inert c) :
    cs.count '<' = 0 ∧ cs.count '>' = 0 ∧ cs.count ',' = 0 := by
  simp only [List.count_eq_zero]
  exact ⟨fun hc => (h _ hc).1 rfl, fun hc => (h _ hc).2.1 rfl, fun hc => (h _ hc).2.2 rfl⟩

/-- A name has as many brackets and commas as its shape asks for. -/
theorem Derives.counts {cs : List Char} {t : Shape} (h : Derives cs t) :
    cs.count '<' = t.containers ∧ cs.count '>' = t.containers ∧ cs.count ',' = t.maps := by
  induction h with
  | @blankBefore c cs t blank _ ih =>
    obtain ⟨hopen, hclose, hcomma⟩ := inert_of_blank blank
    rwa [List.count_cons_of_ne hopen, List.count_cons_of_ne hclose, List.count_cons_of_ne hcomma]
  | @blankAfter c cs t blank _ ih =>
    obtain ⟨hopen, hclose, hcomma⟩ := inert_of_blank blank
    simpa [hopen, hclose, hcomma] using ih
  | void => decide
  | scalar kind => exact count_inert fun c hc => (plain_of_scalar c hc).inert
  | @enumeration name id =>
    have := count_inert fun c hc => (id.plain c hc).inert
    simpa [containers, maps] using this
  | list _ ih => simpa [containers, maps] using ih
  | optional _ ih => simpa [containers, maps] using ih
  | map _ _ ihkey ihvalue =>
    obtain ⟨hopen, hclose, hcomma⟩ := ihkey
    obtain ⟨hopen', hclose', hcomma'⟩ := ihvalue
    refine ⟨?_, ?_, ?_⟩
    · simp [containers, hopen, hopen']
    · simp [containers, hclose, hclose', Nat.add_assoc]
    · simp [maps, hcomma, hcomma', Nat.add_assoc]
  | bean id _ _ => exact count_inert fun c hc => (id.plain c hc).inert

end Shape

end ServiceCall
