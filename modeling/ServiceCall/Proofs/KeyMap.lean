import Mathlib.Data.List.Induction
import Mathlib.Data.List.Sort
import ServiceCall.KeyMap

/-!
# Values under keys

Which value a map has under a key after an entry was added, and after it was made of a list.
-/

namespace ServiceCall

variable {α : Type}

theorem lookup_cons_eq_if (key : String) (value : α) (entries : List (String × α)) (k : String) :
    ((key, value) :: entries).lookup k = if k = key then some value else entries.lookup k := by
  by_cases h : k = key
  · rw [if_pos h, h, List.lookup_cons_self]
  · rw [if_neg h, List.lookup_cons, beq_false_of_ne h]

theorem lookup_insertEntry (key : String) (value : α) (entries : List (String × α)) (k : String) :
    (insertEntry key value entries).lookup k = if k = key then some value else entries.lookup k := by
  induction entries with
  | nil => exact lookup_cons_eq_if key value [] k
  | cons head rest ih =>
    obtain ⟨old, v⟩ := head
    rw [insertEntry]
    split
    · rw [lookup_cons_eq_if]
    · split
      · next heq =>
        subst heq
        rw [lookup_cons_eq_if, lookup_cons_eq_if]
        by_cases h : k = key
        · rw [if_pos h, if_pos h]
        · rw [if_neg h, if_neg h, if_neg h]
      · next hne =>
        rw [lookup_cons_eq_if, lookup_cons_eq_if, ih]
        by_cases hold : k = old
        · have hkey : k ≠ key := fun h => hne (h.symm.trans hold)
          rw [if_pos hold, if_neg hkey, if_pos hold]
        · rw [if_neg hold, if_neg hold]

namespace KeyMap

theorem get?_insert (m : KeyMap α) (key : String) (value : α) (k : String) :
    (m.insert key value).get? k = if k = key then some value else m.get? k :=
  lookup_insertEntry key value m.entries k

@[simp]
theorem get?_insert_self (m : KeyMap α) (key : String) (value : α) :
    (m.insert key value).get? key = some value := by
  rw [get?_insert, if_pos rfl]

theorem get?_insert_of_ne (m : KeyMap α) {key k : String} (value : α) (h : k ≠ key) :
    (m.insert key value).get? k = m.get? k := by
  rw [get?_insert, if_neg h]

/-- Of several values for a key the last one counts. -/
theorem get?_ofList (pairs : List (String × α)) (k : String) :
    (ofList pairs).get? k = pairs.reverse.lookup k := by
  induction pairs using List.reverseRecOn with
  | nil => rfl
  | append_singleton pairs p ih =>
    have hlast : ofList (pairs ++ [p]) = (ofList pairs).insert p.1 p.2 := by
      rw [ofList, List.foldl_append]
      rfl
    rw [hlast, get?_insert, ih, List.reverse_append, List.reverse_singleton, List.singleton_append,
      lookup_cons_eq_if]

/-- A pair that no later one replaces keeps its value. -/
theorem get?_ofList_append (before : List (String × α)) {after : List (String × α)} {k : String}
    (value : α) (hfresh : k ∉ after.map Prod.fst) :
    (ofList (before ++ (k, value) :: after)).get? k = some value := by
  rw [get?_ofList, List.lookup_eq_some_iff]
  refine ⟨after.reverse, before.reverse, by simp, fun p hp => ?_⟩
  have hne : k ≠ p.1 := by
    rintro rfl
    exact hfresh (List.mem_map.mpr ⟨p, List.mem_reverse.mp hp, rfl⟩)
  simpa using hne

/-- A map made of pairs with keys of their own has the value of each pair. -/
theorem get?_ofList_of_mem {pairs : List (String × α)} (hkeys : (pairs.map Prod.fst).Nodup)
    {k : String} {value : α} (h : (k, value) ∈ pairs) : (ofList pairs).get? k = some value := by
  obtain ⟨before, after, rfl⟩ := List.append_of_mem h
  rw [List.map_append, List.map_cons, List.nodup_append, List.nodup_cons] at hkeys
  obtain ⟨-, ⟨hfresh, -⟩, -⟩ := hkeys
  exact get?_ofList_append before value hfresh

theorem contains_ofList (pairs : List (String × α)) (k : String) :
    (ofList pairs).contains k = true ↔ k ∈ pairs.map Prod.fst := by
  rw [contains, get?_ofList, List.lookup_isSome_iff, List.mem_map]
  constructor
  · rintro ⟨p, hp, hkey⟩
    exact ⟨p, List.mem_reverse.mp hp, (beq_iff_eq.mp hkey).symm⟩
  · rintro ⟨p, hp, rfl⟩
    exact ⟨p, List.mem_reverse.mpr hp, beq_self_eq_true p.1⟩

/-! ### The entries of a map -/

theorem nodup_keys (m : KeyMap α) : m.keys.Nodup :=
  List.pairwise_map.mpr (m.sorted.imp fun h => String.ne_of_lt h)

theorem nodup_entries (m : KeyMap α) : m.entries.Nodup := m.nodup_keys.of_map Prod.fst

theorem mem_entries_iff {m : KeyMap α} {k : String} {value : α} :
    (k, value) ∈ m.entries ↔ m.get? k = some value := by
  constructor
  · intro h
    obtain ⟨before, after, hentries⟩ := List.append_of_mem h
    have hsorted := m.sorted
    rw [hentries, List.pairwise_append] at hsorted
    obtain ⟨-, -, hbefore⟩ := hsorted
    rw [get?, List.lookup_eq_some_iff]
    refine ⟨before, after, hentries, fun p hp => ?_⟩
    have hlt : p.1 < k := hbefore p hp _ List.mem_cons_self
    simpa using (String.ne_of_lt hlt).symm
  · intro h
    obtain ⟨before, after, hentries, -⟩ := List.lookup_eq_some_iff.mp h
    rw [hentries]
    exact List.mem_append_right before List.mem_cons_self

theorem mem_keys_iff {m : KeyMap α} {k : String} : k ∈ m.keys ↔ m.contains k = true := by
  rw [keys, List.mem_map, contains, Option.isSome_iff_exists]
  constructor
  · rintro ⟨e, he, rfl⟩
    exact ⟨e.2, mem_entries_iff.mp he⟩
  · rintro ⟨value, hvalue⟩
    exact ⟨(k, value), mem_entries_iff.mpr hvalue, rfl⟩

/-- Maps with the same values are the same: their entries stand in one order. -/
theorem ext_get? {m n : KeyMap α} (h : ∀ k, m.get? k = n.get? k) : m = n := by
  have hperm : m.entries.Perm n.entries := by
    rw [List.perm_ext_iff_of_nodup m.nodup_entries n.nodup_entries]
    rintro ⟨k, value⟩
    rw [mem_entries_iff, mem_entries_iff, h k]
  have hentries : m.entries = n.entries :=
    hperm.eq_of_pairwise
      (fun _ _ _ _ hab hba => absurd (String.lt_trans hab hba) (String.lt_irrefl _)) m.sorted
      n.sorted
  cases m
  cases n
  cases hentries
  rfl

/-- A map made of pairs with keys of their own has just these pairs as its entries. -/
theorem perm_entries_ofList {pairs : List (String × α)} (hkeys : (pairs.map Prod.fst).Nodup) :
    (ofList pairs).entries.Perm pairs := by
  rw [List.perm_ext_iff_of_nodup (nodup_entries _) (hkeys.of_map Prod.fst)]
  rintro ⟨k, value⟩
  rw [mem_entries_iff]
  refine ⟨fun h => ?_, get?_ofList_of_mem hkeys⟩
  rw [get?_ofList] at h
  obtain ⟨before, after, hpairs, -⟩ := List.lookup_eq_some_iff.mp h
  rw [← List.mem_reverse, hpairs]
  exact List.mem_append_right before List.mem_cons_self

end KeyMap

end ServiceCall
