import Mathlib.Algebra.GroupWithZero.Nat
import Mathlib.Data.List.Induction
import ServiceCall.Proofs.KeyMap
import ServiceCall.Tracking

/-!
# Accounts in any order

The accounts of calls in a row hold the categories of these calls, in the order of their names: for
each how many calls there were, and how long they took together, up to the greatest total. A total
that is once cut stays at its greatest value, whatever comes behind, and would have come to it in any
other order too. So the order of the calls does not matter.
-/

namespace ServiceCall

/-- A call that is accounted for. -/
structure TrackedCall where
  category : String
  nanos : Nat
deriving DecidableEq, Repr

namespace CategoryStats

/-- The account of calls that took so long each. -/
def ofTimes (times : List Nat) : CategoryStats := ⟨times.length, min times.sum maxTotal⟩

/-- A total that is cut at once is the same as one that is cut along the way. -/
theorem add_ofTimes (times : List Nat) (nanos : Nat) :
    (ofTimes times).add nanos = ofTimes (times ++ [nanos]) := by
  simp only [ofTimes, add, List.length_append, List.length_singleton,
    List.sum_append_nat, List.sum_singleton, mk.injEq, true_and]
  omega

theorem ofTimes_perm {times rest : List Nat} (h : times.Perm rest) :
    ofTimes times = ofTimes rest := by
  rw [ofTimes, ofTimes, h.length_eq, h.sum_nat]

end CategoryStats

namespace ActionStats

/-- How long the calls of a category took each, in the order of the calls. -/
def times (calls : List TrackedCall) (category : String) : List Nat :=
  (calls.filter (·.category = category)).map TrackedCall.nanos

/-- The accounts behind calls in a row, there being none before. -/
def ofCalls (calls : List TrackedCall) : ActionStats :=
  calls.foldl (fun s c => s.track c.category c.nanos) KeyMap.empty

variable {calls others : List TrackedCall} {category : String}

/-! ### The times of a category -/

theorem times_concat (calls : List TrackedCall) (x : TrackedCall) (category : String) :
    times (calls ++ [x]) category
      = times calls category ++ if x.category = category then [x.nanos] else [] := by
  rw [times, times, List.filter_append, List.map_append, List.filter_singleton]
  by_cases h : x.category = category <;> simp [h]

theorem times_eq_nil_iff : times calls category = [] ↔ category ∉ calls.map TrackedCall.category := by
  rw [times, List.map_eq_nil_iff, List.filter_eq_nil_iff]
  simp

theorem length_times (calls : List TrackedCall) (category : String) :
    (times calls category).length = (calls.map TrackedCall.category).count category := by
  rw [times, List.length_map, ← List.countP_eq_length_filter, List.count, List.countP_map]
  rfl

theorem times_perm (h : others.Perm calls) (category : String) :
    (times others category).Perm (times calls category) :=
  (h.filter _).map _

/-! ### One call -/

/-- A call is added to the account of its category, and no other account changes. -/
theorem get?_track (s : ActionStats) (category : String) (nanos : Nat) (other : String) :
    KeyMap.get? (s.track category nanos) other
      = if other = category then some (((KeyMap.get? s category).getD {}).add nanos)
        else KeyMap.get? s other :=
  KeyMap.get?_insert s category _ other

/-! ### Calls in a row -/

theorem ofCalls_concat (calls : List TrackedCall) (x : TrackedCall) :
    ofCalls (calls ++ [x]) = (ofCalls calls).track x.category x.nanos := by
  rw [ofCalls, List.foldl_append]
  rfl

/-- A category has the account of its times, if it has any. -/
theorem get?_ofCalls (calls : List TrackedCall) (category : String) :
    KeyMap.get? (ofCalls calls) category
      = if times calls category = [] then none else some (.ofTimes (times calls category)) := by
  induction calls using List.reverseRecOn with
  | nil => rfl
  | append_singleton calls x ih =>
    rw [ofCalls_concat, get?_track, times_concat]
    by_cases hx : category = x.category
    · subst hx
      -- no account yet is as good as the account of no calls
      have hearlier : (KeyMap.get? (ofCalls calls) x.category).getD {}
          = .ofTimes (times calls x.category) := by
        rw [ih]
        split
        · next hnone => rw [hnone]; rfl
        · rfl
      rw [if_pos rfl, if_pos rfl, hearlier, CategoryStats.add_ofTimes, if_neg (by simp)]
    · rw [if_neg hx, if_neg (Ne.symm hx), List.append_nil, ih]

/-- A category of the calls has an account, with the number of its calls and their time in all. -/
theorem mem_entries_ofCalls {stats : CategoryStats} :
    (category, stats) ∈ KeyMap.entries (ofCalls calls)
      ↔ category ∈ calls.map TrackedCall.category
        ∧ stats.count = (calls.map TrackedCall.category).count category
        ∧ stats.totalNanos = min (times calls category).sum (2 ^ 64 - 1) := by
  have hsome : KeyMap.get? (ofCalls calls) category = some stats
      ↔ times calls category ≠ [] ∧ .ofTimes (times calls category) = stats := by
    rw [get?_ofCalls]
    split
    · next hnone => simp [hnone]
    · next hsome => simp [hsome]
  rw [KeyMap.mem_entries_iff, hsome, Ne, times_eq_nil_iff, not_not, ← length_times]
  refine and_congr_right fun _ => ?_
  obtain ⟨count, total⟩ := stats
  rw [CategoryStats.ofTimes, CategoryStats.mk.injEq, eq_comm, eq_comm (b := total)]
  rfl

theorem ofCalls_perm (h : others.Perm calls) : ofCalls others = ofCalls calls := by
  refine KeyMap.ext_get? fun category => ?_
  have htimes := times_perm h category
  have hnil : times others category = [] ↔ times calls category = [] := by
    rw [← List.length_eq_zero_iff, htimes.length_eq, List.length_eq_zero_iff]
  rw [get?_ofCalls, get?_ofCalls, CategoryStats.ofTimes_perm htimes]
  simp only [hnil]

/-- What the accounts behind calls are. -/
structure Accounted (calls : List TrackedCall) : Prop where
  /-- There is an account for just the categories of the calls, with the number of its calls and the
  time of all of them, up to the greatest word of 64 bits. -/
  held (category : String) (stats : CategoryStats) :
    (category, stats) ∈ KeyMap.entries (ofCalls calls)
      ↔ category ∈ calls.map TrackedCall.category
        ∧ stats.count = (calls.map TrackedCall.category).count category
        ∧ stats.totalNanos = min (times calls category).sum (2 ^ 64 - 1)
  listed (category : String) :
    category ∈ KeyMap.keys (ofCalls calls) ↔ category ∈ calls.map TrackedCall.category
  /-- The categories are listed in increasing order, each once. -/
  increasing : (KeyMap.keys (ofCalls calls)).Pairwise (· < ·)
  /-- As long as a word of 64 bits can count the calls, all numbers of the accounts are such words. -/
  words : calls.length < 2 ^ 64 → ∀ category stats,
    (category, stats) ∈ KeyMap.entries (ofCalls calls) →
      stats.count < 2 ^ 64 ∧ stats.totalNanos < 2 ^ 64
  /-- The same calls in another order have the same accounts. -/
  anyOrder (others : List TrackedCall) : others.Perm calls → ofCalls others = ofCalls calls

theorem accounted_ofCalls (calls : List TrackedCall) : Accounted calls where
  held _ _ := mem_entries_ofCalls
  listed category := by
    rw [KeyMap.mem_keys_iff, KeyMap.contains, get?_ofCalls, ← not_iff_not, ← times_eq_nil_iff]
    simp
  increasing := List.pairwise_map.mpr (ofCalls calls).sorted
  words hfew category stats hmem := by
    obtain ⟨-, hcount, htotal⟩ := mem_entries_ofCalls.mp hmem
    have hle := (calls.map TrackedCall.category).count_le_length (a := category)
    rw [List.length_map] at hle
    omega
  anyOrder _ := ofCalls_perm

/-- Calls in whatever order lead to the same accounts: the categories of the calls in the order of
their names, each with the number and the time of its own calls. One more call leaves the accounts of
other categories as they are, whatever these are. -/
theorem calls_accounted (calls : List TrackedCall) :
    Accounted calls
      ∧ ∀ (s : ActionStats) (category : String) (nanos : Nat) (other : String), other ≠ category →
        KeyMap.get? (s.track category nanos) other = KeyMap.get? s other := by
  refine ⟨accounted_ofCalls calls, fun s category nanos other hother => ?_⟩
  rw [get?_track, if_neg hother]

/-- The total is cut, and the calls are counted on. -/
example : (ofCalls [⟨"http", 100⟩, ⟨"db", 10⟩, ⟨"http", 2 ^ 64 - 1⟩, ⟨"http", 250⟩]).entries
    = [("db", ⟨1, 10⟩), ("http", ⟨3, 2 ^ 64 - 1⟩)] := by decide +kernel

end ActionStats

end ServiceCall
