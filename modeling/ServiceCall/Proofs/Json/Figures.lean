import Mathlib.Data.List.Induction
import Mathlib.Tactic.Tauto
import ServiceCall.Proofs.Json.Lexing

/-!
# The figures of a number

How a number is written: a sign, the whole part, a fraction and an exponent. The machine takes these
characters one by one; what it holds in each phase is what was written so far.
-/

namespace ServiceCall.Json

/-- One digit or more. -/
inductive Digits : List Char → Prop where
  | mk {c : Char} {ds : List Char} (first : c.isDigit = true) (more : ∀ d ∈ ds, d.isDigit = true) :
      Digits (c :: ds)

inductive Sign : List Char → Bool → Prop where
  | none : Sign [] false
  | minus : Sign ['-'] true

/-- A zero, or digits that do not start with one. -/
inductive WholePart : List Char → Prop where
  | zero : WholePart ['0']
  | digits {c : Char} {ds : List Char} (digits : Digits (c :: ds)) (nonzero : c ≠ '0') :
      WholePart (c :: ds)

inductive Fraction : List Char → List Char → Prop where
  | none : Fraction [] []
  | some {ds : List Char} (digits : Digits ds) : Fraction ('.' :: ds) ds

inductive ExponentSign : List Char → Bool → Prop where
  | none : ExponentSign [] false
  | plus : ExponentSign ['+'] false
  | minus : ExponentSign ['-'] true

inductive Exponent : List Char → Option (Bool × List Char) → Prop where
  | none : Exponent [] none
  | some {c : Char} {s ds : List Char} {negative : Bool} (mark : c = 'e' ∨ c = 'E')
      (sign : ExponentSign s negative) (digits : Digits ds) :
      Exponent (c :: (s ++ ds)) (some (negative, ds))

/-- A number without its exponent. -/
inductive Mantissa : List Char → Numeral → Prop where
  | intro {s w f ds : List Char} {negative : Bool} (sign : Sign s negative) (whole : WholePart w)
      (fraction : Fraction f ds) :
      Mantissa (s ++ w ++ f) { negative, whole := w, fraction := ds }

/-- The characters write the number. -/
inductive Figures : List Char → Numeral → Prop where
  | intro {m e : List Char} {n : Numeral} {exponent : Option (Bool × List Char)}
      (mantissa : Mantissa m n) (power : Exponent e exponent) : Figures (m ++ e) { n with exponent }

/-- The character continues a number. -/
def GoesOn (c : Char) : Prop := c.isDigit = true ∨ c = '.' ∨ c = 'e' ∨ c = 'E'

theorem Digits.concat {ds : List Char} {c : Char} (h : Digits ds) (hc : c.isDigit = true) :
    Digits (ds ++ [c]) := by
  cases h with
  | mk hfirst hmore =>
    refine .mk hfirst fun d hd => ?_
    rcases List.mem_append.mp hd with hd | hd
    · exact hmore d hd
    · rwa [List.mem_singleton.mp hd]

theorem digits_singleton {c : Char} (hc : c.isDigit = true) : Digits [c] :=
  .mk hc nofun

theorem Mantissa.exponent {m : List Char} {n : Numeral} (h : Mantissa m n) : n.exponent = none := by
  cases h
  rfl

theorem Mantissa.ofWhole {s w : List Char} {negative : Bool} (hsign : Sign s negative)
    (hwhole : WholePart w) : Mantissa (s ++ w) { negative, whole := w } := by
  have h := Mantissa.intro hsign hwhole .none
  rwa [List.append_nil] at h

theorem Mantissa.figures {m : List Char} {n : Numeral} (h : Mantissa m n) : Figures m n := by
  have hfigures := Figures.intro h .none
  rwa [List.append_nil, ← h.exponent] at hfigures

namespace Lexer

/-- The characters that bring the machine into a phase of a number, and what they write. The machine
itself holds `closeNumeral` of that, its digits in reverse. -/
inductive Wrote : NumberPhase → List Char → Numeral → Prop where
  | minus : Wrote .minus ['-'] { negative := true }
  | zero {s : List Char} {negative : Bool} (sign : Sign s negative) :
      Wrote .zero (s ++ ['0']) { negative, whole := ['0'] }
  | whole {s ds : List Char} {c : Char} {negative : Bool} (sign : Sign s negative)
      (digits : Digits (c :: ds)) (nonzero : c ≠ '0') :
      Wrote .whole (s ++ c :: ds) { negative, whole := c :: ds }
  | point {s w : List Char} {negative : Bool} (sign : Sign s negative) (whole : WholePart w) :
      Wrote .point (s ++ w ++ ['.']) { negative, whole := w }
  | fraction {s w ds : List Char} {negative : Bool} (sign : Sign s negative) (whole : WholePart w)
      (digits : Digits ds) :
      Wrote .fraction (s ++ w ++ '.' :: ds) { negative, whole := w, fraction := ds }
  | mark {m : List Char} {n : Numeral} {c : Char} (mantissa : Mantissa m n)
      (mark : c = 'e' ∨ c = 'E') : Wrote .mark (m ++ [c]) n
  | sign {m s : List Char} {n : Numeral} {c : Char} {negative : Bool} (mantissa : Mantissa m n)
      (mark : c = 'e' ∨ c = 'E') (sign : ExponentSign s negative) (signed : s ≠ []) :
      Wrote .sign (m ++ c :: s) { n with exponent := some (negative, []) }
  | exponent {m s ds : List Char} {n : Numeral} {c : Char} {negative : Bool}
      (mantissa : Mantissa m n) (mark : c = 'e' ∨ c = 'E') (sign : ExponentSign s negative)
      (digits : Digits ds) :
      Wrote .exponent (m ++ c :: (s ++ ds)) { n with exponent := some (negative, ds) }

/-- The machine behind the first digit of a number. -/
def opened (negative : Bool) (c : Char) : State :=
  if c = '0' then .number .zero { negative, whole := ['0'] }
  else .number .whole { negative, whole := [c] }

theorem ne_of_isDigit {c d : Char} (hc : c.isDigit = true) (hd : d.isDigit = false) : c ≠ d := by
  rintro rfl
  rw [hc] at hd
  cases hd

theorem start_of_isDigit {c : Char} (hc : c.isDigit = true) : start c = ([], opened false c) := by
  have hne := fun {d : Char} => ne_of_isDigit (d := d) hc
  rw [opened]
  split
  · next hzero =>
    rw [hzero]
    rfl
  · next hzero =>
    simp [start, hc, hzero, hne (d := ' ') rfl, hne (d := '\t') rfl, hne (d := '\n') rfl,
      hne (d := '\r') rfl, hne (d := '[') rfl, hne (d := ']') rfl, hne (d := '{') rfl,
      hne (d := '}') rfl, hne (d := ',') rfl, hne (d := ':') rfl, hne (d := '"') rfl,
      hne (d := 'n') rfl, hne (d := 't') rfl, hne (d := 'f') rfl, hne (d := '-') rfl]

theorem stepMinus_of_isDigit {c : Char} (hc : c.isDigit = true) :
    step (.number .minus { negative := true }) (some c) = ([], opened true c) := by
  rw [opened]
  split
  · next hzero =>
    rw [hzero]
    rfl
  · next hzero => simp [step, stepNumber, hc, hzero]

variable {phase : NumberPhase} {cs : List Char} {n : Numeral}

/-- A number may end behind a digit. -/
theorem Wrote.figures (h : Wrote phase cs n)
    (hphase : phase = .zero ∨ phase = .whole ∨ phase = .fraction ∨ phase = .exponent) :
    Figures cs n := by
  cases h with
  | minus | point | mark | sign => simp at hphase
  | zero hsign => exact (Mantissa.ofWhole hsign .zero).figures
  | whole hsign hdigits hnonzero =>
    exact (Mantissa.ofWhole hsign (.digits hdigits hnonzero)).figures
  | fraction hsign hwhole hdigits =>
    exact (Mantissa.intro hsign hwhole (.some hdigits)).figures
  | exponent hmantissa hmark hsign hdigits =>
    exact .intro hmantissa (.some hmark hsign hdigits)

/-- What a character behind some of a number can be: more of it, its end, or a fault. -/
inductive NumberStep (cs : List Char) (n : Numeral) (c : Char) : List Token × State → Prop where
  | more {phase : NumberPhase} {next : Numeral} (wrote : Wrote phase (cs ++ [c]) next) :
      NumberStep cs n c ([], .number phase (closeNumeral next))
  | ending (figures : Figures cs n) (stop : ¬ GoesOn c) :
      NumberStep cs n c (.number n :: (start c).1, (start c).2)
  | fault (ts : List Token) : NumberStep cs n c (ts, .broken)

theorem closeNumeral_closeNumeral (n : Numeral) : closeNumeral (closeNumeral n) = n := by
  cases n with
  | mk negative whole fraction exponent => cases exponent <;> simp [closeNumeral]

section Digit

variable {c : Char} {negative : Bool} {w ds : List Char}

theorem stepNumber_whole (hc : c.isDigit = true) :
    stepNumber .whole (closeNumeral { negative, whole := ds }) c
      = ([], .number .whole (closeNumeral { negative, whole := ds ++ [c] })) := by
  simp [stepNumber, closeNumeral, hc]

theorem stepNumber_point (hc : c.isDigit = true) :
    stepNumber .point (closeNumeral { negative, whole := w }) c
      = ([], .number .fraction (closeNumeral { negative, whole := w, fraction := [c] })) := by
  simp [stepNumber, closeNumeral, hc]

theorem stepNumber_fraction (hc : c.isDigit = true) :
    stepNumber .fraction (closeNumeral { negative, whole := w, fraction := ds }) c
      = ([], .number .fraction (closeNumeral { negative, whole := w, fraction := ds ++ [c] })) := by
  simp [stepNumber, closeNumeral, hc]

theorem stepNumber_mark (hc : c.isDigit = true) :
    stepNumber .mark (closeNumeral n) c
      = ([], .number .exponent (closeNumeral { n with exponent := some (false, [c]) })) := by
  have hplus := ne_of_isDigit hc (d := '+') rfl
  have hminus := ne_of_isDigit hc (d := '-') rfl
  simp [stepNumber, closeNumeral, hc, hplus, hminus]

theorem stepNumber_sign (hc : c.isDigit = true) :
    stepNumber .sign (closeNumeral { n with exponent := some (negative, []) }) c
      = ([], .number .exponent (closeNumeral { n with exponent := some (negative, [c]) })) := by
  simp [stepNumber, pushExponent, closeNumeral, hc]

theorem stepNumber_exponent (hc : c.isDigit = true) :
    stepNumber .exponent (closeNumeral { n with exponent := some (negative, ds) }) c
      = ([], .number .exponent (closeNumeral { n with exponent := some (negative, ds ++ [c]) })) := by
  simp [stepNumber, pushExponent, closeNumeral, hc]

end Digit

theorem endNumber_closeNumeral (n : Numeral) (c : Char) :
    endNumber (closeNumeral n) c = (.number n :: (start c).1, (start c).2) := by
  rw [endNumber, closeNumeral_closeNumeral]

/-- No token starts with a character that continues a number. -/
theorem start_of_goesOn {c : Char} (h : GoesOn c) (hdigit : c.isDigit = false) :
    start c = ([], .broken) := by
  rcases h with h | rfl | rfl | rfl
  · rw [h] at hdigit
    cases hdigit
  · rfl
  · rfl
  · rfl

theorem numberStep_ending {c : Char} (hfigures : Figures cs n) (hdigit : c.isDigit = false) :
    NumberStep cs n c (endNumber (closeNumeral n) c) := by
  rw [endNumber_closeNumeral]
  by_cases hc : GoesOn c
  · rw [start_of_goesOn hc hdigit]
    exact .fault _
  · exact .ending hfigures hc

theorem numberStep_afterWhole {s w : List Char} {negative : Bool} {c : Char}
    (hsign : Sign s negative) (hwhole : WholePart w) (hdigit : c.isDigit = false) :
    NumberStep (s ++ w) { negative, whole := w } c
      (afterWhole (closeNumeral { negative, whole := w }) c) := by
  have hmantissa := Mantissa.ofWhole hsign hwhole
  rw [afterWhole]
  split
  · next hc =>
    rw [beq_iff_eq.mp hc]
    exact .more (.point hsign hwhole)
  · split
    · next hc => exact .more (.mark hmantissa (by simpa using hc))
    · exact numberStep_ending hmantissa.figures hdigit

/-- Behind a sign stands a zero or another digit. -/
theorem numberStep_minus (c : Char) : NumberStep ['-'] { negative := true } c
    (stepNumber .minus (closeNumeral { negative := true }) c) := by
  by_cases hzero : c = '0'
  · subst hzero
    exact .more (.zero .minus)
  · by_cases hdigit : c.isDigit = true
    · have hnext : stepNumber .minus (closeNumeral { negative := true }) c
          = ([], .number .whole (closeNumeral { negative := true, whole := [c] })) := by
        simp [stepNumber, closeNumeral, hzero, hdigit]
      rw [hnext]
      exact .more (.whole .minus (digits_singleton hdigit) hzero)
    · simp only [stepNumber, beq_iff_eq, hzero, hdigit, if_false]
      exact .fault []

/-- Behind the mark of an exponent stands its sign or a digit. -/
theorem numberStep_mark {m : List Char} {d : Char} (hmantissa : Mantissa m n)
    (hmark : d = 'e' ∨ d = 'E') (c : Char) :
    NumberStep (m ++ [d]) n c (stepNumber .mark (closeNumeral n) c) := by
  simp only [stepNumber, Bool.or_eq_true, beq_iff_eq]
  split
  · next hc =>
    have hsign : ExponentSign [c] (c == '-') := by
      rcases hc with rfl | rfl
      · exact .plus
      · exact .minus
    have hwrote := Wrote.sign hmantissa hmark hsign (List.cons_ne_nil c [])
    rw [List.append_cons] at hwrote
    exact .more hwrote
  · split
    · next hdigit =>
      have hwrote := Wrote.exponent hmantissa hmark .none (digits_singleton hdigit)
      rw [List.append_cons] at hwrote
      exact .more hwrote
    · exact .fault []

/-- Behind some of a number a character is a digit, a mark that may stand there, or the end. -/
theorem numberStep (h : Wrote phase cs n) (c : Char) :
    NumberStep cs n c (stepNumber phase (closeNumeral n) c) := by
  have hfigures := h.figures
  -- one case for each place in a number, and in each of them first whether a digit follows
  cases h with
  | minus => exact numberStep_minus c
  | zero hsign =>
    simp only [stepNumber]
    split
    · exact .fault []
    · next hdigit => exact numberStep_afterWhole hsign .zero (by simpa using hdigit)
  | whole hsign hdigits hnonzero =>
    by_cases hdigit : c.isDigit = true
    · rw [stepNumber_whole hdigit]
      refine .more ?_
      rw [List.append_assoc]
      exact .whole hsign (hdigits.concat hdigit) hnonzero
    · simp only [stepNumber, hdigit]
      exact numberStep_afterWhole hsign (.digits hdigits hnonzero) (by simpa using hdigit)
  | point hsign hwhole =>
    by_cases hdigit : c.isDigit = true
    · rw [stepNumber_point hdigit]
      refine .more ?_
      rw [List.append_assoc]
      exact .fraction hsign hwhole (digits_singleton hdigit)
    · simp only [stepNumber, hdigit]
      exact .fault []
  | fraction hsign hwhole hdigits =>
    by_cases hdigit : c.isDigit = true
    · rw [stepNumber_fraction hdigit]
      refine .more ?_
      rw [List.append_assoc]
      exact .fraction hsign hwhole (hdigits.concat hdigit)
    · simp only [stepNumber, Bool.or_eq_true, beq_iff_eq]
      rw [if_neg hdigit]
      split
      · next hc => exact .more (.mark (.intro hsign hwhole (.some hdigits)) hc)
      · exact numberStep_ending (hfigures (by simp)) (by simpa using hdigit)
  | mark hmantissa hmark => exact numberStep_mark hmantissa hmark c
  | sign hmantissa hmark hsign =>
    simp only [stepNumber]
    split
    · next hdigit =>
      have hwrote := Wrote.exponent hmantissa hmark hsign (digits_singleton hdigit)
      rw [← List.cons_append, ← List.append_assoc] at hwrote
      exact .more hwrote
    · exact .fault []
  | exponent hmantissa hmark hsign hdigits =>
    by_cases hdigit : c.isDigit = true
    · rw [stepNumber_exponent hdigit]
      refine .more ?_
      rw [List.append_assoc, List.cons_append, List.append_assoc]
      exact .exponent hmantissa hmark hsign (hdigits.concat hdigit)
    · simp only [stepNumber]
      rw [if_neg hdigit]
      exact numberStep_ending (hfigures (by simp)) (by simpa using hdigit)

/-- Digits are taken one by one, in a phase that adds each of them. -/
theorem Leads.digits {ds : List Char} (parts : List Char → Numeral)
    (h : Leads cs (.number phase (closeNumeral (parts []))))
    (hstep : ∀ {more c}, c.isDigit = true → stepNumber phase (closeNumeral (parts more)) c
      = ([], .number phase (closeNumeral (parts (more ++ [c])))))
    (hds : ∀ d ∈ ds, d.isDigit = true) :
    Leads (cs ++ ds) (.number phase (closeNumeral (parts ds))) := by
  -- from the end, since each step puts its digit behind the others
  induction ds using List.reverseRecOn with
  | nil => rwa [List.append_nil]
  | append_singleton ds d ih =>
    rw [← List.append_assoc]
    refine (ih fun c hc => hds c (List.mem_append_left _ hc)).concat ?_
    exact hstep (hds d (by simp))

theorem leads_opened {s : List Char} {negative : Bool} {c : Char} (hsign : Sign s negative)
    (hc : c.isDigit = true) : Leads (s ++ [c]) (opened negative c) := by
  have hnone : Leads [] .between := fun units => rfl
  cases hsign with
  | none => exact hnone.concat (start_of_isDigit hc)
  | minus => exact (hnone.concat rfl).concat (stepMinus_of_isDigit hc)

theorem leads_whole {s w : List Char} {negative : Bool} (hsign : Sign s negative)
    (hw : WholePart w) : ∃ phase, (phase = .zero ∨ phase = .whole)
      ∧ Leads (s ++ w) (.number phase (closeNumeral { negative, whole := w })) := by
  cases hw with
  | zero => exact ⟨.zero, .inl rfl, leads_opened hsign rfl⟩
  | @digits c ds hdigits hnonzero =>
    cases hdigits with
    | mk hfirst hmore =>
      have hopened := leads_opened hsign hfirst
      rw [opened, if_neg hnonzero] at hopened
      have hdigits := Leads.digits (fun more => { negative, whole := c :: more }) hopened
        stepNumber_whole hmore
      rw [← List.append_cons] at hdigits
      exact ⟨.whole, .inr rfl, hdigits⟩

theorem leads_mantissa {m : List Char} (h : Mantissa m n) : ∃ phase,
    (phase = .zero ∨ phase = .whole ∨ phase = .fraction)
      ∧ Leads m (.number phase (closeNumeral n)) := by
  cases h with
  | @intro s w f ds negative hsign hwhole hfraction =>
    obtain ⟨phase, hphase, hleads⟩ := leads_whole hsign hwhole
    cases hfraction with
    | none =>
      rw [List.append_nil]
      exact ⟨phase, by tauto, hleads⟩
    | some hdigits =>
      cases hdigits with
      | @mk c ds hfirst hmore =>
        have hpoint : Leads (s ++ w ++ ['.'])
            (.number .point (closeNumeral { negative, whole := w })) := by
          rcases hphase with rfl | rfl <;> exact hleads.concat rfl
        have hone := hpoint.concat (stepNumber_point hfirst)
        have hdigits := Leads.digits (fun more => { negative, whole := w, fraction := c :: more })
          hone stepNumber_fraction hmore
        rw [← List.append_cons, ← List.append_cons] at hdigits
        exact ⟨.fraction, .inr (.inr rfl), hdigits⟩

/-- Figures bring the machine into a phase in which a number may end. -/
theorem leads_figures (h : Figures cs n) : ∃ phase,
    (phase = .zero ∨ phase = .whole ∨ phase = .fraction ∨ phase = .exponent)
      ∧ Leads cs (.number phase (closeNumeral n)) := by
  cases h with
  | @intro m e n exponent hmantissa hpower =>
    obtain ⟨phase, hphase, hleads⟩ := leads_mantissa hmantissa
    cases hpower with
    | none =>
      have hn : { n with exponent := none } = n := by rw [← hmantissa.exponent]
      rw [List.append_nil, hn]
      exact ⟨phase, by tauto, hleads⟩
    | @some mark s ds negative hmark hsign hdigits =>
      cases hdigits with
      | @mk c ds hfirst hmore =>
        -- a mark is taken in each of the phases in which the mantissa may end
        have hbehind : Leads (m ++ [mark]) (.number .mark (closeNumeral n)) := by
          rcases hphase with rfl | rfl | rfl <;> rcases hmark with rfl | rfl <;>
            exact hleads.concat rfl
        -- sign and first digit of the exponent have phases of their own, later digits share one
        have hone : Leads (m ++ mark :: (s ++ [c]))
            (.number .exponent (closeNumeral { n with exponent := some (negative, [c]) })) := by
          cases hsign with
          | none =>
            have hstep := hbehind.concat (stepNumber_mark hfirst)
            rwa [← List.append_cons] at hstep
          | plus =>
            have hplus : Leads (m ++ [mark] ++ ['+'])
                (.number .sign (closeNumeral { n with exponent := some (false, []) })) :=
              hbehind.concat rfl
            have hstep := hplus.concat (stepNumber_sign hfirst)
            rwa [← List.append_cons, ← List.append_cons] at hstep
          | minus =>
            have hminus : Leads (m ++ [mark] ++ ['-'])
                (.number .sign (closeNumeral { n with exponent := some (true, []) })) :=
              hbehind.concat rfl
            have hstep := hminus.concat (stepNumber_sign hfirst)
            rwa [← List.append_cons, ← List.append_cons] at hstep
        have hdigits := Leads.digits
          (fun more => { n with exponent := some (negative, c :: more) })
          hone stepNumber_exponent hmore
        refine ⟨.exponent, by tauto, ?_⟩
        rwa [List.append_assoc, List.cons_append, List.append_assoc, List.singleton_append] at hdigits

theorem stepNumber_of_stop {c : Char}
    (hphase : phase = .zero ∨ phase = .whole ∨ phase = .fraction ∨ phase = .exponent)
    (hstop : ¬ GoesOn c) : stepNumber phase (closeNumeral n) c
      = (.number n :: (start c).1, (start c).2) := by
  simp only [GoesOn, not_or] at hstop
  obtain ⟨hdigit, hpoint, hsmall, hgreat⟩ := hstop
  rw [← endNumber_closeNumeral]
  rcases hphase with rfl | rfl | rfl | rfl <;>
    simp [stepNumber, afterWhole, hdigit, hpoint, hsmall, hgreat]

/-- Figures are read as their number, up to a character that does not continue it. -/
theorem lexes_figures {rest : List Char} (h : Figures cs n) (hstop : ∀ c ∈ rest.head?, ¬ GoesOn c) :
    Lexes cs [.number n] rest := by
  obtain ⟨phase, hphase, hleads⟩ := leads_figures h
  rw [Lexes, List.map_append, hleads]
  -- a number has no end of its own: the end of the input closes it, or the character behind it
  cases rest with
  | nil =>
    have hclose := closeNumeral_closeNumeral n
    rcases hphase with rfl | rfl | rfl | rfl <;> simp [run, finish, hclose]
  | cons c rest =>
    have hstep := stepNumber_of_stop (n := n) hphase (hstop c rfl)
    rw [List.map_cons, run, step, hstep]
    rfl

end Lexer

end ServiceCall.Json
