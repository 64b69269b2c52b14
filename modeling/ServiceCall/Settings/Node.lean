import ServiceCall.Decimal.Notation

/-!
# Values of settings

What a settings document holds, whatever it was written in. The entries of a table have different
keys.
-/

namespace ServiceCall

/-- A value of a settings document. -/
inductive Node where
  | null
  | flag (b : Bool)
  | integer (n : Int)
  | real (x : Floating)
  | text (s : String)
  | list (items : List Node)
  | table (entries : List (String × Node))
deriving Repr, Inhabited

namespace Node

/-- The entries with `value` under `key`, in the place of an earlier value of the key. -/
def put (key : String) (value : Node) : List (String × Node) → List (String × Node)
  | [] => [(key, value)]
  | (k, v) :: rest => if k = key then (key, value) :: rest else (k, v) :: put key value rest

/-- What was put under a key is found there. -/
theorem lookup_put (key : String) (value : Node) (entries : List (String × Node)) :
    (put key value entries).lookup key = some value := by
  induction entries with
  | nil => simp [put]
  | cons head rest ih =>
    obtain ⟨k, v⟩ := head
    by_cases h : k = key
    · simp [put, h]
    · have hne : (key == k) = false := by simpa using fun e => h e.symm
      simp [put, h, List.lookup_cons, hne, ih]

/-- What stands under another key stays there. -/
theorem lookup_put_of_ne {key other : String} (h : other ≠ key) (value : Node)
    (entries : List (String × Node)) : (put key value entries).lookup other = entries.lookup other := by
  have hne : (other == key) = false := by simpa using h
  induction entries with
  | nil => simp [put, List.lookup_cons, hne]
  | cons head rest ih =>
    obtain ⟨k, v⟩ := head
    by_cases hk : k = key
    · subst hk
      simp [put, List.lookup_cons, hne]
    · simp only [put, hk, if_false, List.lookup_cons, ih]

/-- The entries of a table; no other value has any. -/
def entries : Node → List (String × Node)
  | .table es => es
  | _ => []

end Node

end ServiceCall
