/-!
# Maps from names, in name order

A map from texts that keeps its entries sorted by key. Keys compare by code point, which is also
the order of their UTF-8 bytes.
-/

namespace ServiceCall

/-- Adds or replaces the entry of a key in a sorted list of entries. -/
def insertEntry {α : Type} (key : String) (value : α) : List (String × α) → List (String × α)
  | [] => [(key, value)]
  | (k, v) :: rest =>
    if key < k then (key, value) :: (k, v) :: rest
    else if key = k then (key, value) :: rest
    else (k, v) :: insertEntry key value rest

/-- Entries with keys in strictly increasing order. -/
structure KeyMap (α : Type) where
  entries : List (String × α) := []
  sorted : entries.Pairwise (fun a b => a.1 < b.1) := by exact List.Pairwise.nil

namespace KeyMap

variable {α : Type}

/-- Every key of the extended list is the new one or an old one. -/
theorem mem_insertEntry {key : String} {value : α} {entries : List (String × α)}
    {e : String × α} (h : e ∈ insertEntry key value entries) : e = (key, value) ∨ e ∈ entries := by
  induction entries with
  | nil => simp_all [insertEntry]
  | cons head rest ih =>
    obtain ⟨k, v⟩ := head
    unfold insertEntry at h
    split at h
    · simp_all
    · split at h
      · simp only [List.mem_cons] at h ⊢
        rcases h with h | h
        · exact Or.inl h
        · exact Or.inr (Or.inr h)
      · simp only [List.mem_cons] at h ⊢
        rcases h with h | h
        · exact Or.inr (Or.inl h)
        · rcases ih h with h | h
          · exact Or.inl h
          · exact Or.inr (Or.inr h)

/-- A key that is neither below nor equal to another is above it. -/
theorem lt_of_not_lt_of_ne {a b : String} (hlt : ¬ a < b) (hne : a ≠ b) : b < a := by
  have hle : b ≤ a := String.not_lt.mp hlt
  apply Decidable.byContradiction
  intro h
  exact hne (String.le_antisymm (String.not_lt.mp h) hle)

/-- Insertion keeps the entries sorted. -/
theorem sorted_insertEntry (key : String) (value : α) {entries : List (String × α)}
    (h : entries.Pairwise (fun a b => a.1 < b.1)) :
    (insertEntry key value entries).Pairwise (fun a b => a.1 < b.1) := by
  induction entries with
  | nil => simp [insertEntry]
  | cons head rest ih =>
    obtain ⟨k, v⟩ := head
    obtain ⟨hk, hrest⟩ := List.pairwise_cons.mp h
    unfold insertEntry
    split
    · next hlt =>
      refine List.pairwise_cons.mpr ⟨fun e he => ?_, h⟩
      rcases List.mem_cons.mp he with rfl | he
      · exact hlt
      · exact String.lt_trans hlt (hk e he)
    · next hlt =>
      split
      · next heq =>
        subst heq
        exact List.pairwise_cons.mpr ⟨hk, hrest⟩
      · next hne =>
        refine List.pairwise_cons.mpr ⟨fun e he => ?_, ih hrest⟩
        rcases mem_insertEntry he with rfl | he
        · exact lt_of_not_lt_of_ne hlt hne
        · exact hk e he

/-- The map without entries. -/
def empty : KeyMap α := {}

instance : Inhabited (KeyMap α) := ⟨empty⟩

/-- The map with `value` under `key`, in place of any earlier value. -/
def insert (m : KeyMap α) (key : String) (value : α) : KeyMap α :=
  ⟨insertEntry key value m.entries, sorted_insertEntry key value m.sorted⟩

/-- The value under a key. -/
def get? (m : KeyMap α) (key : String) : Option α := m.entries.lookup key

/-- Whether the key has a value. -/
def contains (m : KeyMap α) (key : String) : Bool := (m.get? key).isSome

/-- The keys, in increasing order. -/
def keys (m : KeyMap α) : List String := m.entries.map Prod.fst

/-- The values, in the order of their keys. -/
def values (m : KeyMap α) : List α := m.entries.map Prod.snd

/-- The map of a list of pairs; a later pair replaces an earlier one of the same key. -/
def ofList (pairs : List (String × α)) : KeyMap α :=
  pairs.foldl (fun m p => m.insert p.1 p.2) empty

end KeyMap

end ServiceCall
