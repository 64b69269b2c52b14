import ServiceCall.Proofs.Json.Figures
import ServiceCall.Proofs.Json.Quoting

/-!
# The spelling of tokens

Which characters spell which tokens. The machine reads just such characters to their end without
finding a text that stands for no characters.
-/

namespace ServiceCall.Json

/-- The characters spell the token, and it is seen from them where it ends. -/
inductive Lexeme : List Char → Token → Prop where
  | openArray : Lexeme ['['] .openArray
  | closeArray : Lexeme [']'] .closeArray
  | openObject : Lexeme ['{'] .openObject
  | closeObject : Lexeme ['}'] .closeObject
  | comma : Lexeme [','] .comma
  | colon : Lexeme [':'] .colon
  | null : Lexeme ['n', 'u', 'l', 'l'] .null
  | true : Lexeme ['t', 'r', 'u', 'e'] (.bool true)
  | false : Lexeme ['f', 'a', 'l', 's', 'e'] (.bool false)
  | text {qs cs : List Char} (quotes : Quotes qs cs) :
      Lexeme ('"' :: qs ++ ['"']) (.text (some (String.ofList cs)))

/-- The characters spell the tokens, with any blanks around these. A number is as long as it can be. -/
inductive Spells : List Char → List Token → Prop where
  | nil : Spells [] []
  | blank {c : Char} {cs : List Char} {ts : List Token}
      (blank : c = ' ' ∨ c = '\t' ∨ c = '\n' ∨ c = '\r') (rest : Spells cs ts) : Spells (c :: cs) ts
  | lexeme {us cs : List Char} {t : Token} {ts : List Token} (first : Lexeme us t)
      (rest : Spells cs ts) : Spells (us ++ cs) (t :: ts)
  | number {us cs : List Char} {n : Numeral} {ts : List Token} (first : Figures us n)
      (stop : ∀ c ∈ cs.head?, ¬ GoesOn c) (rest : Spells cs ts) :
      Spells (us ++ cs) (.number n :: ts)

namespace Lexer

variable {cs rest : List Char} {ts : List Token} {s : State}

theorem lexes_quotes {qs : List Char} (h : Quotes qs cs) (rest : List Char) :
    Lexes ('"' :: qs ++ ['"']) [.text (some (String.ofList cs))] rest := by
  have hopen : step .between (some '"') = ([], inText []) := rfl
  have hclose : step (inText cs.reverse) (some '"')
      = ([.text (some (String.ofList cs))], .between) := by
    rw [← List.reverse_reverse cs, List.reverse_reverse cs.reverse]
    rfl
  rw [Lexes, List.append_assoc, List.cons_append, List.map_cons, run_cons_of_silent hopen,
    List.map_append, run_quotes h, List.singleton_append, List.map_cons, run, hclose]

theorem lexes_lexeme {t : Token} (h : Lexeme cs t) (rest : List Char) : Lexes cs [t] rest := by
  cases h with
  | text hquotes => exact lexes_quotes hquotes rest
  | openArray | closeArray | openObject | closeObject | comma | colon | null | true | false => rfl

/-- What is spelt is read as its tokens. -/
theorem run_of_spells (h : Spells cs ts) : run .between (cs.map some) = (ts, .complete) := by
  have hlexes : ∀ {us cs t ts}, Lexes us [t] cs → run .between (cs.map some) = (ts, .complete) →
      run .between ((us ++ cs).map some) = (t :: ts, .complete) := by
    intro us cs t ts hus hrest
    rw [hus, hrest]
    rfl
  induction h with
  | nil => rfl
  | blank hblank _ ih =>
    rcases hblank with rfl | rfl | rfl | rfl <;> exact (run_cons_of_silent rfl _).trans ih
  | lexeme hfirst _ ih => exact hlexes (lexes_lexeme hfirst _) ih
  | number hfirst hstop _ ih => exact hlexes (lexes_figures hfirst hstop) ih

/-! ### What was read -/

/-- The characters of a token that is not complete bring the machine into a state. -/
inductive Within : State → List Char → Prop where
  | word {cs rest : List Char} {t : Token} (more : rest ≠ []) (word : Lexeme (cs ++ rest) t) :
      Within (.word rest t) cs
  | number {phase : NumberPhase} {cs : List Char} {n : Numeral} (wrote : Wrote phase cs n) :
      Within (.number phase (closeNumeral n)) cs
  | text {t : OpenText} {qs : List Char} (quoted : Quoted t qs) : Within (.text t) ('"' :: qs)

/-- A character that starts a token. -/
inductive Start (c : Char) : List Token × State → Prop where
  | blank (blank : c = ' ' ∨ c = '\t' ∨ c = '\n' ∨ c = '\r') : Start c ([], .between)
  | lexeme {t : Token} (first : Lexeme [c] t) : Start c ([t], .between)
  | within {s : State} (within : Within s [c]) : Start c ([], s)
  | fault : Start c ([], .broken)

theorem start_spec (c : Char) : Start c (start c) := by
  unfold start
  by_cases hblank : c = ' ' ∨ c = '\t' ∨ c = '\n' ∨ c = '\r'
  · rw [if_pos (by simpa [or_assoc] using hblank)]
    exact .blank hblank
  rw [if_neg (by simpa [or_assoc] using hblank)]
  -- the characters are told apart one by one, in the order in which the machine asks for them
  refine of_ite_char Start (.lexeme .openArray) fun _ => ?_
  refine of_ite_char Start (.lexeme .closeArray) fun _ => ?_
  refine of_ite_char Start (.lexeme .openObject) fun _ => ?_
  refine of_ite_char Start (.lexeme .closeObject) fun _ => ?_
  refine of_ite_char Start (.lexeme .comma) fun _ => ?_
  refine of_ite_char Start (.lexeme .colon) fun _ => ?_
  refine of_ite_char Start (.within (.text (.ofSettled false (.whole .nil)))) fun _ => ?_
  refine of_ite_char Start (.within (.word (List.cons_ne_nil _ _) .null)) fun _ => ?_
  refine of_ite_char Start (.within (.word (List.cons_ne_nil _ _) .true)) fun _ => ?_
  refine of_ite_char Start (.within (.word (List.cons_ne_nil _ _) .false)) fun _ => ?_
  refine of_ite_char Start (.within (.number .minus)) fun _ => ?_
  refine of_ite_char Start (.within (.number (.zero .none))) fun hzero => ?_
  by_cases hdigit : c.isDigit = true
  · rw [if_pos hdigit]
    exact .within (.number (.whole .none (digits_singleton hdigit) hzero))
  · rw [if_neg hdigit]
    exact .fault

/-- A unit behind some characters of a token. -/
inductive TokenStep (cs : List Char) : Option Char → List Token × State → Prop where
  | more {c : Char} {s : State} (within : Within s (cs ++ [c])) : TokenStep cs (some c) ([], s)
  | last {c : Char} {t : Token} (lexeme : Lexeme (cs ++ [c]) t) :
      TokenStep cs (some c) ([t], .between)
  | ending {n : Numeral} {c : Char} (figures : Figures cs n) (stop : ¬ GoesOn c) :
      TokenStep cs (some c) (.number n :: (start c).1, (start c).2)
  | lost {r : List Token × State} (u : Option Char) (lost : Lost r) : TokenStep cs u r

theorem tokenStep (h : Within s cs) (u : Option Char) : TokenStep cs u (step s u) := by
  cases h with
  | @word cs rest t hmore hword =>
    cases rest with
    | nil => exact absurd rfl hmore
    | cons next rest =>
      cases u with
      | none => cases rest <;> exact .lost none (.fault [])
      | some c =>
        cases rest with
        | nil =>
          simp only [step, beq_iff_eq]
          split
          · next hc =>
            rw [hc]
            exact .last hword
          · exact .lost _ (.fault [])
        | cons next' rest =>
          simp only [step, beq_iff_eq]
          split
          · next hc =>
            rw [List.append_cons] at hword
            rw [hc]
            exact .more (.word (List.cons_ne_nil _ _) hword)
          · exact .lost _ (.fault [])
  | @number phase cs n hwrote =>
    cases u with
    | none => exact .lost none (.fault [])
    | some c =>
      have hstep := numberStep hwrote c
      rw [step]
      generalize stepNumber phase (closeNumeral n) c = r at hstep ⊢
      cases hstep with
      | more hmore => exact .more (.number hmore)
      | ending hfigures hstop => exact .ending hfigures hstop
      | fault ts => exact .lost _ (.fault ts)
  | @text t qs hquoted =>
    have hstep := quoteStep hquoted u
    rw [step]
    generalize stepText t u = r at hstep ⊢
    cases hstep with
    | more hmore => exact .more (.text hmore)
    | ending htext => exact .last (.text htext)
    | lost _ hlost => exact .lost u hlost

theorem text_none_mem_of_lost {r : List Token × State} {us : List (Option Char)} (hlost : Lost r)
    (hrun : run r.2 us = (ts, .complete)) : .text none ∈ r.1 ++ ts := by
  -- once lost, a machine completes its input only if it has handed out such a text
  induction us generalizing r ts with
  | nil =>
    cases hlost with
    | fault ts | spoiled hspoiled => cases hrun
    | noText => exact List.mem_cons_self
  | cons u us ih =>
    obtain ⟨more, hmore, rfl⟩ := run_cons_eq_iff.mp hrun
    cases hlost with
    | fault ts => exact List.mem_append_right ts (ih (.fault []) hmore)
    | spoiled hspoiled =>
      have hnext := ih (hspoiled.step u) hmore
      exact hnext
    | noText => exact List.mem_cons_self

/-- A number that may end is spelt by what was read of it. -/
theorem spells_of_finish {phase : NumberPhase} {n : Numeral} (hwrote : Wrote phase cs n)
    (h : finish (.number phase (closeNumeral n)) = (ts, .complete)) : Spells cs ts := by
  have hspells : Figures cs n → ts = [.number n] → Spells cs ts := by
    rintro hfigures rfl
    have h := Spells.number hfigures (by simp) .nil
    rwa [List.append_nil] at h
  cases phase with
  | minus | point | mark | sign => cases h
  | zero | whole | fraction | exponent =>
    rw [finish, closeNumeral_closeNumeral] at h
    exact hspells (hwrote.figures (by simp)) (congrArg Prod.fst h).symm

/-- The units are characters that spell the tokens, together with those before them. -/
def Spelt (before : List Char) (us : List (Option Char)) (ts : List Token) : Prop :=
  ∃ cs, us = cs.map some ∧ Spells (before ++ cs) ts

theorem Spelt.cons {before : List Char} {c : Char} {us : List (Option Char)}
    (h : Spelt (before ++ [c]) us ts) : Spelt before (some c :: us) ts := by
  obtain ⟨cs, rfl, hcs⟩ := h
  rw [← List.append_cons] at hcs
  exact ⟨c :: cs, rfl, hcs⟩

theorem Spelt.lexeme {us : List (Option Char)} {t : Token} (hfirst : Lexeme cs t)
    (h : Spelt [] us ts) : Spelt cs us (t :: ts) := by
  obtain ⟨rest, rfl, hrest⟩ := h
  exact ⟨rest, rfl, .lexeme hfirst hrest⟩

/-- Behind some characters the machine stands between tokens, or within one that they belong to. -/
inductive Behind : State → List Char → Prop where
  | between : Behind .between []
  | within {s : State} {cs : List Char} (within : Within s cs) : Behind s cs

/-- From wherever the machine stands, units are spelt if they are read to their end. -/
def Reads (us : List (Option Char)) : Prop :=
  ∀ ⦃s before ts⦄, Behind s before → .text none ∉ ts → run s us = (ts, .complete) →
    Spelt before us ts

theorem spelt_of_start {us : List (Option Char)} {c : Char} (h : Reads us)
    (hts : .text none ∉ (start c).1 ++ ts) (hrun : run (start c).2 us = (ts, .complete)) :
    Spelt [] (some c :: us) ((start c).1 ++ ts) := by
  have hrest := fun h => hts (List.mem_append_right _ h)
  have hstart := start_spec c
  generalize start c = r at hstart hrun hts ⊢
  cases hstart with
  | blank hblank =>
    obtain ⟨cs, rfl, hcs⟩ := h .between hrest hrun
    exact ⟨c :: cs, rfl, .blank hblank hcs⟩
  | lexeme hfirst => exact .cons (.lexeme hfirst (h .between hrest hrun))
  | within hwithin => exact .cons (h (.within hwithin) hrest hrun)
  | fault => exact absurd (text_none_mem_of_lost (.fault []) hrun) hts

theorem spelt_of_step {us : List (Option Char)} {u : Option Char} {before : List Char}
    (h : Reads us) (hwithin : Within s before) (hts : .text none ∉ (step s u).1 ++ ts)
    (hrun : run (step s u).2 us = (ts, .complete)) :
    Spelt before (u :: us) ((step s u).1 ++ ts) := by
  have hrest := fun h => hts (List.mem_append_right _ h)
  have hstep := tokenStep hwithin u
  generalize step s u = r at hstep hrun hts ⊢
  cases hstep with
  | more hnext => exact .cons (h (.within hnext) hrest hrun)
  | last hlexeme => exact .cons (.lexeme hlexeme (h .between hrest hrun))
  | ending hfigures hstop =>
    -- The character behind a number is the first of what follows.
    have hafter := spelt_of_start h (fun h => hts (List.mem_cons_of_mem _ h)) hrun
    obtain ⟨cs, hus, hcs⟩ := hafter
    refine ⟨cs, hus, .number hfigures ?_ hcs⟩
    cases cs with
    | nil => exact nofun
    | cons d cs =>
      cases hus
      simpa using hstop
  | lost _ hlost => exact absurd (text_none_mem_of_lost hlost hrun) hts

theorem reads (us : List (Option Char)) : Reads us := by
  -- on the units to come; the characters of the token that is open are general
  induction us with
  | nil =>
    intro s before ts hbehind _ hrun
    refine ⟨[], rfl, ?_⟩
    rw [List.append_nil]
    cases hbehind with
    | between =>
      cases hrun
      exact .nil
    | within hwithin =>
      cases hwithin with
      -- of the tokens that are open only a number may end with the input
      | word | text => cases hrun
      | number hwrote => exact spells_of_finish hwrote hrun
  | cons u us ih =>
    intro s before ts hbehind hts hrun
    obtain ⟨more, hmore, rfl⟩ := run_cons_eq_iff.mp hrun
    cases hbehind with
    | between =>
      cases u with
      | none => exact absurd (text_none_mem_of_lost (.fault []) hmore) hts
      | some c => exact spelt_of_start ih hts hmore
    | within hwithin => exact spelt_of_step ih hwithin hts hmore

/-- The machine reads units to their end, and finds no text without characters, if they are characters
that spell the tokens. -/
theorem run_eq_complete_iff {us : List (Option Char)} (hts : .text none ∉ ts) :
    run .between us = (ts, .complete) ↔ ∃ cs, us = cs.map some ∧ Spells cs ts := by
  constructor
  · exact reads us .between hts
  · rintro ⟨cs, rfl, hcs⟩
    exact run_of_spells hcs

end Lexer

end ServiceCall.Json
