import ServiceCall.Proofs.Json.Lexing

/-!
# Quoted texts

What may stand between the quotes of a text, and for which characters it stands. A code of the lower
half of the surrogates counts only behind one of the upper half.
-/

namespace ServiceCall.Json

open Lexer (hexValue? shortEscape?)

/-- The digits write the number in base sixteen. -/
inductive Hex : List Char → Nat → Prop where
  | nil : Hex [] 0
  | concat {hs : List Char} {n : Nat} {c : Char} {d : Nat} (digits : Hex hs n)
      (last : hexValue? c = some d) : Hex (hs ++ [c]) (16 * n + d)

/-- The escape of a code. -/
inductive Code : List Char → Nat → Prop where
  | mk {hs : List Char} {n : Nat} (digits : Hex hs n) (four : hs.length = 4) :
      Code ('\\' :: 'u' :: hs) n

/-- What stands between quotes, and the text that it stands for. -/
inductive Quotes : List Char → List Char → Prop where
  | nil : Quotes [] []
  | plain {qs cs : List Char} {c : Char} (before : Quotes qs cs) (noQuote : c ≠ '"')
      (noBackslash : c ≠ '\\') (noControl : 32 ≤ c.toNat) : Quotes (qs ++ [c]) (cs ++ [c])
  | short {qs cs : List Char} {letter c : Char} (before : Quotes qs cs)
      (escape : shortEscape? letter = some c) : Quotes (qs ++ ['\\', letter]) (cs ++ [c])
  | code {qs cs us : List Char} {n : Nat} (before : Quotes qs cs) (code : Code us n)
      (noHalf : n < 0xD800 ∨ 0xE000 ≤ n) : Quotes (qs ++ us) (cs ++ [Char.ofNat n])
  | pair {qs cs us ws : List Char} {high low : Nat} (before : Quotes qs cs) (first : Code us high)
      (isHigh : 0xD800 ≤ high ∧ high < 0xDC00) (second : Code ws low)
      (isLow : 0xDC00 ≤ low ∧ low < 0xE000) :
      Quotes (qs ++ us ++ ws)
        (cs ++ [Char.ofNat (0x10000 + (high - 0xD800) * 0x400 + (low - 0xDC00))])

namespace Lexer

variable {t : OpenText} {qs cs us : List Char} {code : Nat}

/-! ### Escapes -/

/-- The machine behind some characters of a text, given in reverse. -/
def inText (content : List Char) : State := .text { content := some content }

theorem run_shortEscape (content : List Char) {letter c : Char} (hletter : letter ≠ 'u')
    (h : shortEscape? letter = some c) (units : List (Option Char)) :
    run (inText content) (some '\\' :: some letter :: units) = run (inText (c :: content)) units := by
  have hbackslash : step (inText content) (some '\\')
      = ([], .text { content := some content, phase := .escape }) := rfl
  have hescape : step (.text { content := some content, phase := .escape }) (some letter)
      = ([], inText (c :: content)) := by
    simp [step, stepText, hletter, h, OpenText.drop, OpenText.push, inText]
  rw [run_cons_of_silent hbackslash, run_cons_of_silent hescape]

theorem width_of_hexValue? {c : Char} {d : Nat} (h : hexValue? c = some d) :
    Utf8.width (some c) = 1 := by
  have hsmall : c.val ≤ 127 := by
    unfold hexValue? at h
    split at h
    · next hdigit =>
      have hnine : c.val ≤ 57 := by
        rw [Char.isDigit, Bool.and_eq_true, decide_eq_true_iff, decide_eq_true_iff] at hdigit
        exact hdigit.2
      exact UInt32.le_trans hnine (by decide)
    split at h
    · next hlower => exact UInt32.le_trans hlower.2 (by decide)
    split at h
    · next hupper => exact UInt32.le_trans hupper.2 (by decide)
    · cases h
  exact Char.utf8Size_eq_one_iff.mpr hsmall

theorem pushCode_of_phase (t : OpenText) (phase : TextPhase) (code : Nat) :
    { t with phase }.pushCode code = t.pushCode code := by
  unfold OpenText.pushCode
  dsimp only
  split <;> rfl

theorem pushCode_of_char (hhalf : t.half = none) (h : code < 0xD800 ∨ 0xE000 ≤ code) :
    t.pushCode code = t.push (Char.ofNat code) := by
  have hhigh : ¬ (0xD800 ≤ code ∧ code < 0xDC00) := by omega
  have hlow : ¬ (0xDC00 ≤ code ∧ code < 0xE000) := by omega
  simp [OpenText.pushCode, hhalf, ← Bool.decide_and, hhigh, hlow]

theorem pushCode_of_high (hhalf : t.half = none) (h : 0xD800 ≤ code ∧ code < 0xDC00) :
    t.pushCode code = { t with half := some code, phase := .plain } := by
  simp [OpenText.pushCode, hhalf, h.1, h.2]

theorem pushCode_of_low {high : Nat} (hhalf : t.half = some high) (h : 0xDC00 ≤ code ∧ code < 0xE000) :
    t.pushCode code = { t with half := none }.push
      (Char.ofNat (0x10000 + (high - 0xD800) * 0x400 + (code - 0xDC00))) := by
  simp [OpenText.pushCode, hhalf, h.1, h.2]

/-- A half without the other one spoils the text. -/
theorem content_pushCode_of_alone
    (h : t.half.isSome = true ↔ ¬ (0xDC00 ≤ code ∧ code < 0xE000)) :
    (t.pushCode code).content = none := by
  cases hhalf : t.half with
  | none =>
    have hlow : 0xDC00 ≤ code ∧ code < 0xE000 := by simpa [hhalf] using h
    have hhigh : ¬ (0xD800 ≤ code ∧ code < 0xDC00) := by omega
    simp [OpenText.pushCode, hhalf, ← Bool.decide_and, hhigh, hlow]
  | some high =>
    have hlow : ¬ (0xDC00 ≤ code ∧ code < 0xE000) := by simpa [hhalf] using h
    simp [OpenText.pushCode, hhalf, ← Bool.decide_and, hlow]

theorem run_hex {hs : List Char} {n : Nat} (h : Hex hs n) (hlength : hs.length < 4)
    (units : List (Option Char)) :
    run (.text { t with phase := .code 4 0 true }) (hs.map some ++ units)
      = run (.text { t with phase := .code (4 - hs.length) n true }) units := by
  induction h generalizing units with
  | nil => rfl
  | @concat hs n c d digits hlast ih =>
    rw [List.length_append, List.length_singleton] at hlength
    have hstep : step (.text { t with phase := .code (4 - hs.length) n true }) (some c)
        = ([], .text { t with phase := .code (4 - (hs ++ [c]).length) (16 * n + d) true }) := by
      have hleft : 4 - hs.length - 1 ≠ 0 := by omega
      simp [step, stepText, stepCode, hlast, width_of_hexValue? hlast, hleft, Nat.sub_add_eq]
    rw [List.map_append, List.append_assoc, ih (by omega), List.map_singleton, List.singleton_append,
      run_cons_of_silent hstep]

/-- An escape of a code is read as the code. -/
theorem run_ofCode (hplain : t.phase = .plain) (h : Code us code) (units : List (Option Char)) :
    run (.text t) (us.map some ++ units) = run (.text (t.pushCode code)) units := by
  cases h with
  | @mk hs _ hdigits hfour =>
    cases hdigits with
    | nil => cases hfour
    | @concat hs n c d digits hlast =>
      -- the fourth digit ends the code, so only the three before it are read as digits in a row
      rw [List.length_append, List.length_singleton] at hfour
      have hthree : hs.length = 3 := by omega
      have hbackslash : step (.text t) (some '\\') = ([], .text { t with phase := .escape }) := by
        simp [step, stepText, hplain]
      have hu : step (.text { t with phase := .escape }) (some 'u')
          = ([], .text { t with phase := .code 4 0 true }) := rfl
      have hclose : step (.text { t with phase := .code 1 n true }) (some c)
          = ([], .text (t.pushCode (16 * n + d))) := by
        simp [step, stepText, stepCode, hlast, width_of_hexValue? hlast, pushCode_of_phase]
      have hhex := run_hex (t := t) digits (by omega) (some c :: units)
      rw [hthree] at hhex
      rw [List.map_cons, List.map_cons, List.map_append, List.cons_append, List.cons_append,
        List.append_assoc, run_cons_of_silent hbackslash, run_cons_of_silent hu, List.map_singleton,
        List.singleton_append, hhex, run_cons_of_silent hclose]

/-- What stands between quotes is read as its text. -/
theorem run_quotes (h : Quotes qs cs) (units : List (Option Char)) :
    run (inText []) (qs.map some ++ units) = run (inText cs.reverse) units := by
  induction h generalizing units with
  | nil => rfl
  | @plain qs cs c _ hquote hbackslash hcontrol ih =>
    have hstep : step (inText cs.reverse) (some c) = ([], inText (cs ++ [c]).reverse) := by
      simp [inText, step, stepText, hquote, hbackslash, Nat.not_lt.mpr hcontrol, OpenText.drop,
        OpenText.push]
    rw [List.map_append, List.append_assoc, ih, List.map_singleton, List.singleton_append,
      run_cons_of_silent hstep]
  | @short qs cs letter c _ hescape ih =>
    have hletter : letter ≠ 'u' := by
      rintro rfl
      cases hescape
    rw [List.map_append, List.append_assoc, ih, List.reverse_concat]
    exact run_shortEscape cs.reverse hletter hescape units
  | @code qs cs us n _ hcode hnoHalf ih =>
    rw [List.map_append, List.append_assoc, ih, inText, run_ofCode rfl hcode,
      pushCode_of_char rfl hnoHalf, List.reverse_concat]
    rfl
  | @pair qs cs us ws high low _ hfirst hhigh hsecond hlow ih =>
    rw [List.append_assoc, List.map_append, List.append_assoc, ih, inText, List.map_append,
      List.append_assoc, run_ofCode rfl hfirst, pushCode_of_high rfl hhigh, run_ofCode rfl hsecond,
      pushCode_of_low rfl hlow, List.reverse_concat]
    rfl

/-! ### What was read -/

/-- The characters behind the opening quote, without an escape that is not complete. -/
inductive Settled : List Char → Option Nat → List Char → Prop where
  | whole {qs cs : List Char} (text : Quotes qs cs) : Settled cs none qs
  | half {qs cs us : List Char} {high : Nat} (text : Quotes qs cs) (first : Code us high)
      (isHigh : 0xD800 ≤ high ∧ high < 0xDC00) : Settled cs (some high) (qs ++ us)

/-- The characters of an escape that is not complete. -/
inductive Ahead : TextPhase → List Char → Prop where
  | plain : Ahead .plain []
  | escape : Ahead .escape ['\\']
  | code {hs : List Char} {value left : Nat} (digits : Hex hs value) (four : hs.length + left = 4)
      (more : left ≠ 0) : Ahead (.code left value true) ('\\' :: 'u' :: hs)

/-- The characters behind the opening quote that bring the machine into a state. -/
inductive Quoted : OpenText → List Char → Prop where
  | intro {qs cs us : List Char} {half : Option Nat} {phase : TextPhase} (lone : Bool)
      (settled : Settled cs half qs) (ahead : Ahead phase us) :
      Quoted ⟨some cs.reverse, lone, half, phase⟩ (qs ++ us)

/-- Whatever follows, the text stands for no characters. -/
inductive Spoiled : OpenText → Prop where
  | content {t : OpenText} (none : t.content = none) : Spoiled t
  | digits {t : OpenText} {left value : Nat} (code : t.phase = .code left value false) : Spoiled t

/-- The machine is at a fault, or at a text that stands for no characters. -/
inductive Lost : List Token × State → Prop where
  | fault (ts : List Token) : Lost (ts, .broken)
  | spoiled {t : OpenText} (spoiled : Spoiled t) : Lost ([], .text t)
  | noText : Lost ([.text none], .between)

theorem content_drop_of_none (h : t.content = none) : t.drop.content = none := by
  rw [OpenText.drop]
  split
  · rfl
  · exact h

theorem content_push_of_none (h : t.content = none) (c : Char) : (t.push c).content = none := by
  rw [OpenText.push, h]
  rfl

theorem content_pushCode_of_none (h : t.content = none) : (t.pushCode code).content = none := by
  unfold OpenText.pushCode
  dsimp only
  split
  · split
    · exact content_push_of_none h _
    · rfl
  · split
    · exact h
    split
    · rfl
    · exact content_push_of_none h _

/-- A spoiled text stays so to its end. -/
theorem Spoiled.step (h : Spoiled t) (u : Option Char) : Lost (stepText t u) := by
  cases h with
  | content hnone =>
    have hdrop := content_drop_of_none hnone
    -- a code; the escapes; then, from the sixth case on, characters that are no escape
    fun_cases stepText t u with
    | case1 left value sound =>
      unfold stepCode
      dsimp only
      split
      · exact .spoiled (.content hnone)
      split
      · exact .spoiled (.content (content_pushCode_of_none hnone))
      · exact .fault []
    | case2 | case6 => exact .spoiled (.content hnone)
    | case3 | case9 => exact .spoiled (.content (content_push_of_none hdrop _))
    | case4 | case5 | case8 => exact .fault []
    | case7 =>
      rw [hdrop]
      exact .noText
    | case10 => exact .spoiled (.content rfl)
  | @digits left value hcode =>
    simp only [stepText, hcode, stepCode, Bool.false_and]
    split
    · exact .spoiled (.digits rfl)
    · exact .fault []

/-- What a unit behind some of a text can be: more of it, its end, or a fault. -/
inductive QuoteStep (qs : List Char) : Option Char → List Token × State → Prop where
  | more {c : Char} {t : OpenText} (quoted : Quoted t (qs ++ [c])) :
      QuoteStep qs (some c) ([], .text t)
  | ending {cs : List Char} (text : Quotes qs cs) :
      QuoteStep qs (some '"') ([.text (some (String.ofList cs))], .between)
  | lost {r : List Token × State} (u : Option Char) (lost : Lost r) : QuoteStep qs u r

theorem Quoted.ofSettled {half : Option Nat} (lone : Bool) (h : Settled cs half qs) :
    Quoted ⟨some cs.reverse, lone, half, .plain⟩ qs := by
  have hquoted := Quoted.intro lone h .plain
  rwa [List.append_nil] at hquoted

/-- A code is a character, half of one, or out of place. -/
theorem quoteStep_pushCode {lone : Bool} {half : Option Nat} {phase : TextPhase} {c : Char}
    (hsettled : Settled cs half qs) (hcode : Code (us ++ [c]) code) :
    QuoteStep (qs ++ us) (some c)
      ([], .text (OpenText.pushCode ⟨some cs.reverse, lone, half, phase⟩ code)) := by
  have hassoc : qs ++ us ++ [c] = qs ++ (us ++ [c]) := List.append_assoc qs us [c]
  -- a first half without its second, or a second without its first, spoils the text
  by_cases halone : half.isSome = true ↔ ¬ (0xDC00 ≤ code ∧ code < 0xE000)
  · exact .lost _ (.spoiled (.content (content_pushCode_of_alone halone)))
  cases hsettled with
  | whole htext =>
    have hlow : ¬ (0xDC00 ≤ code ∧ code < 0xE000) := by simpa using halone
    refine .more ?_
    rw [hassoc]
    by_cases hhigh : 0xD800 ≤ code ∧ code < 0xDC00
    · rw [pushCode_of_high rfl hhigh]
      exact .ofSettled lone (.half htext hcode hhigh)
    · have hnoHalf : code < 0xD800 ∨ 0xE000 ≤ code := by omega
      have hquoted := Quoted.ofSettled lone (.whole (.code htext hcode hnoHalf))
      rw [List.reverse_concat] at hquoted
      rw [pushCode_of_char rfl hnoHalf]
      exact hquoted
  | @half base cs ws high htext hfirst hhigh =>
    have hlow : 0xDC00 ≤ code ∧ code < 0xE000 := by simpa using halone
    have hquoted := Quoted.ofSettled lone (.whole (.pair htext hfirst hhigh hcode hlow))
    rw [List.reverse_concat] at hquoted
    rw [pushCode_of_low rfl hlow]
    refine .more ?_
    rw [hassoc]
    exact hquoted

/-- A character of its own, unless half of one came before. -/
theorem quoteStep_push {lone : Bool} {half : Option Nat} {phase : TextPhase} {c e : Char}
    (hsettled : Settled cs half qs) (htext : Quotes qs cs → Quotes (us ++ [c]) (cs ++ [e])) :
    QuoteStep us (some c)
      ([], .text (OpenText.push (OpenText.drop ⟨some cs.reverse, lone, half, phase⟩) e)) := by
  cases hsettled with
  | whole hbefore =>
    have hquoted := Quoted.ofSettled lone (.whole (htext hbefore))
    rw [List.reverse_concat] at hquoted
    exact .more hquoted
  | half => exact .lost _ (.spoiled (.content rfl))

theorem quoteStep_plain {lone : Bool} {half : Option Nat} (hsettled : Settled cs half qs)
    (u : Option Char) : QuoteStep qs u (stepText ⟨some cs.reverse, lone, half, .plain⟩ u) := by
  cases u with
  | none => exact .lost _ (.spoiled (.content rfl))
  | some c =>
    simp only [stepText, beq_iff_eq]
    split
    · next hc =>
      subst hc
      exact .more (.intro lone hsettled .escape)
    split
    · next hc =>
      subst hc
      cases hsettled with
      | whole htext =>
        have hending := QuoteStep.ending htext
        rwa [← List.reverse_reverse cs] at hending
      -- a text that ends where a second half is due has no characters
      | half => exact .lost _ .noText
    split
    · exact .lost _ (.fault [])
    · next hbackslash hquote hcontrol =>
      have hplain : Quotes qs cs → Quotes (qs ++ [c]) (cs ++ [c]) := fun htext =>
        .plain htext hquote hbackslash (Nat.not_lt.mp hcontrol)
      exact quoteStep_push hsettled hplain

/-- A unit behind some of a text. -/
theorem quoteStep (h : Quoted t qs) (u : Option Char) : QuoteStep qs u (stepText t u) := by
  cases h with
  | @intro qs cs us half phase lone hsettled hahead =>
    -- by what is open: nothing, an escape, or a code of which some digits are there
    cases hahead with
    | plain =>
      rw [List.append_nil]
      exact quoteStep_plain hsettled u
    | escape =>
      cases u with
      | none => exact .lost _ (.fault [])
      | some c =>
        simp only [stepText, beq_iff_eq]
        split
        · next hu =>
          subst hu
          refine .more ?_
          rw [List.append_assoc]
          exact .intro lone hsettled (.code .nil rfl (by decide))
        split
        · next e hescape =>
          refine quoteStep_push hsettled fun h => ?_
          rw [List.append_assoc]
          exact .short h hescape
        · exact .lost _ (.fault [])
    | @code hs value left hdigits hfour hmore =>
      simp only [stepText, stepCode, Bool.true_and]
      cases hdigit : u.bind hexValue? with
      | none =>
        split
        · exact .lost _ (.spoiled (.digits rfl))
        · exact .lost _ (.fault [])
      | some d =>
        obtain ⟨c, rfl, hc⟩ := Option.bind_eq_some_iff.mp hdigit
        have hdigits' := hdigits.concat hc
        have hlength : (hs ++ [c]).length = hs.length + 1 := List.length_append
        rw [width_of_hexValue? hc]
        split
        · next hleft =>
          have hahead := Ahead.code hdigits' (by omega) hleft
          refine .more ?_
          rw [List.append_assoc]
          exact .intro lone hsettled hahead
        · next hleft =>
          have hcode := Code.mk hdigits' (by omega)
          exact quoteStep_pushCode hsettled hcode

end Lexer

end ServiceCall.Json
