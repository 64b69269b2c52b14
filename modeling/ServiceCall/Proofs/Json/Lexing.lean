import ServiceCall.Json.Lexer

/-!
# Runs of the machine

What a run from one state says about the run from the next one, and what it is for characters to be read
as tokens in front of whatever follows.
-/

namespace ServiceCall.Json

/-- What is tested for one character holds there of that character, and elsewhere of every other. -/
theorem of_ite_char {α : Type} (P : Char → α → Prop) {c d : Char} {r r' : α} (h : P d r)
    (h' : c ≠ d → P c r') : P c (if c == d then r else r') := by
  by_cases hc : c = d
  · rw [if_pos (beq_iff_eq.mpr hc), hc]
    exact h
  · rw [if_neg (by simpa using hc)]
    exact h' hc

namespace Lexer

theorem run_cons_eq_iff {s : State} {ts : List Token} {u : Option Char}
    {us : List (Option Char)} {ending : Ending} : run s (u :: us) = (ts, ending)
      ↔ ∃ more, run (step s u).2 us = (more, ending) ∧ ts = (step s u).1 ++ more := by
  constructor
  · rintro ⟨⟩
    exact ⟨_, rfl, rfl⟩
  · rintro ⟨more, hrun, rfl⟩
    rw [run]
    dsimp only
    rw [hrun]

/-- A unit that completes no token only moves the machine on. -/
theorem run_cons_of_silent {state next : State} {u : Option Char} (h : step state u = ([], next))
    (units : List (Option Char)) : run state (u :: units) = run next units := by
  rw [run, h]
  rfl

/-- Characters in front of others are read as tokens in front of those of the others. -/
def Lexes (cs : List Char) (ts : List Token) (rest : List Char) : Prop :=
  run .between ((cs ++ rest).map some)
    = (ts ++ (run .between (rest.map some)).1, (run .between (rest.map some)).2)

/-- Behind the characters the machine is in a state, and no token was complete. -/
def Leads (cs : List Char) (s : State) : Prop :=
  ∀ units, run .between (cs.map some ++ units) = run s units

theorem Leads.concat {cs : List Char} {s next : State} {c : Char} (h : Leads cs s)
    (hstep : step s (some c) = ([], next)) : Leads (cs ++ [c]) next := by
  intro units
  rw [List.map_append, List.append_assoc, h, List.map_singleton, List.singleton_append,
    run_cons_of_silent hstep]

end Lexer

end ServiceCall.Json
