import Mathlib.Data.List.TakeWhile
import Mathlib.Tactic.Ring
import ServiceCall.Url.Punycode

/-!
# Labels read back from Punycode

A label that is written in Punycode is read back from it. The writer goes through the code points in
increasing order, and for each of them through the whole label; the reader puts one character after the
other in its place. Between two numbers, the reader has the characters that the writer is done with, and
what the writer has counted since is the way from the reader's last place to the next one.
-/

namespace ServiceCall.Punycode

/-! ### Numbers -/

theorem digitValue?_digit {n : Nat} (h : n < 36) : digitValue? (digit n) = some n := by
  have hdigits : ∀ n < 36, digitValue? (digit n) = some n := by decide
  exact hdigits n h

theorem threshold_bounds (k bias : Nat) : 1 ≤ threshold k bias ∧ threshold k bias ≤ 26 := by
  unfold threshold
  split
  · omega
  · split <;> omega

/-- A number is read back from its digits, whatever was read before and follows. -/
theorem takeNumber_number (bias : Nat) {fuel q : Nat} (hfuel : q < fuel) (rest : List Char)
    (k weight sum : Nat) :
    takeNumber bias (number bias fuel k q ++ rest) k weight sum = some (sum + q * weight, rest) := by
  induction fuel generalizing q k weight sum with
  | zero => cases hfuel
  | succ fuel ih =>
    obtain ⟨hpos, hle⟩ := threshold_bounds k bias
    rw [number]
    split
    · next hlast =>
      simp [takeNumber, digitValue?_digit (n := q) (by omega), hlast]
    · next hmore =>
      -- the last digit is below the threshold, the others carry what is left to the next place
      generalize ht : threshold k bias = t at hpos hle hmore ⊢
      have hrest : (q - t) % (36 - t) < 36 - t := Nat.mod_lt _ (by omega)
      have hsmaller : (q - t) / (36 - t) ≤ q - t := Nat.div_le_self _ _
      have hdigit : digitValue? (digit (t + (q - t) % (36 - t))) = some (t + (q - t) % (36 - t)) :=
        digitValue?_digit (by omega)
      have hparts : t + (q - t) % (36 - t) + (q - t) / (36 - t) * (36 - t) = q := by
        have := Nat.mod_add_div' (q - t) (36 - t)
        omega
      have hsum : sum + (t + (q - t) % (36 - t)) * weight + (q - t) / (36 - t) * (weight * (36 - t))
          = sum + q * weight := by
        conv_rhs => rw [← hparts]
        ring
      simp only [List.cons_append, takeNumber, hdigit, ht, Option.bind_eq_bind, Option.bind_some]
      rw [if_neg (by omega), ih (by omega), hsum]

/-- The character is a digit of a number. -/
def IsDigit (c : Char) : Prop := ∃ n < 36, c = digit n

theorem isDigit_of_mem_number {bias fuel k q : Nat} : ∀ c ∈ number bias fuel k q, IsDigit c := by
  induction fuel generalizing k q with
  | zero => simp [number]
  | succ fuel ih =>
    obtain ⟨hpos, hle⟩ := threshold_bounds k bias
    rw [number]
    split
    · next hlast =>
      rintro c hc
      exact ⟨q, by omega, List.mem_singleton.mp hc⟩
    · rintro c hc
      have hrest : (q - threshold k bias) % (36 - threshold k bias) < 36 - threshold k bias :=
        Nat.mod_lt _ (by omega)
      rcases List.mem_cons.mp hc with rfl | hc
      · exact ⟨_, by omega, rfl⟩
      · exact ih c hc

theorem number_ne_nil (bias fuel k q : Nat) : number bias (fuel + 1) k q ≠ [] := by
  rw [number]
  split <;> simp

/-! ### Readers -/

/-- Where a reader is: the characters that it has, the code point and the place behind the last one, and
the bias of the next number. -/
structure Reader where
  out : List Char
  point : Nat
  place : Nat
  bias : Nat

/-- From here on, the digits give the label. -/
def Spells (digits : List Char) (r : Reader) (label : List Char) : Prop :=
  ∀ fuel, digits.length ≤ fuel →
    decodePoints fuel digits r.out r.point r.place r.bias = some label

theorem spells_nil (r : Reader) : Spells [] r r.out := by
  intro fuel _
  cases fuel <;> rfl

/-- The reader behind a character that is put in at a place. -/
def Reader.put (r : Reader) (c : Char) (place delta : Nat) : Reader where
  out := r.out.take place ++ c :: r.out.drop place
  point := c.toNat
  place := place + 1
  bias := adapt delta (r.out.length + 1) (r.place == 0)

/-- One number: the character that it stands for is put where it says. -/
theorem decodePoints_of_takeNumber {r : Reader} {c d : Char} {fuel place delta : Nat}
    {digits rest : List Char} (hread : takeNumber r.bias (d :: digits) 36 1 0 = some (delta, rest))
    (hpoint : r.point + (r.place + delta) / (r.out.length + 1) = c.toNat)
    (hplace : (r.place + delta) % (r.out.length + 1) = place) :
    decodePoints (fuel + 1) (d :: digits) r.out r.point r.place r.bias
      = decodePoints fuel rest (r.put c place delta).out (r.put c place delta).point
          (r.put c place delta).place (r.put c place delta).bias := by
  have hvalid : (r.point + (r.place + delta) / (r.out.length + 1)).isValidChar := hpoint ▸ c.valid
  have hchar : Char.ofNatAux _ hvalid = c := Char.toNat_inj.mp hpoint
  subst hplace
  show Option.bind (takeNumber r.bias (d :: digits) 36 1 0) _ = _
  rw [hread]
  show dite _ _ _ = _
  rw [dif_pos hvalid, hchar, hpoint]
  rfl

/-- A number that leads from the reader's place to a later one puts a character there. -/
theorem spells_number {r : Reader} {c : Char} {place delta : Nat} {later label : List Char}
    (hplace : place ≤ r.out.length) (hpoint : r.point ≤ c.toNat)
    (hdelta : r.place + delta = (c.toNat - r.point) * (r.out.length + 1) + place)
    (h : Spells later (r.put c place delta) label) :
    Spells (number r.bias (delta + 1) 36 delta ++ later) r label := by
  intro fuel hfuel
  have hread := takeNumber_number r.bias (Nat.lt_succ_self delta) later 36 1 0
  obtain ⟨d, digits, hcons⟩ := List.exists_cons_of_ne_nil (number_ne_nil r.bias delta 36 delta)
  rw [Nat.succ_eq_add_one, hcons] at hread
  rw [hcons, List.length_append, List.length_cons] at hfuel
  obtain ⟨fuel, rfl⟩ := Nat.exists_eq_add_one_of_ne_zero (n := fuel) (by omega)
  -- character and place are quotient and rest by the number of places
  have hpoint' : r.point + (r.place + delta) / (r.out.length + 1) = c.toNat := by
    rw [hdelta, Nat.mul_comm, Nat.mul_add_div (Nat.succ_pos _),
      Nat.div_eq_of_lt (Nat.lt_succ_of_le hplace)]
    omega
  have hplace' : (r.place + delta) % (r.out.length + 1) = place := by
    rw [hdelta, Nat.mul_comm, Nat.mul_add_mod, Nat.mod_eq_of_lt (Nat.lt_succ_of_le hplace)]
  rw [Nat.zero_add, Nat.mul_one, List.cons_append] at hread
  rw [hcons, List.cons_append, decodePoints_of_takeNumber hread hpoint' hplace']
  exact h fuel (by omega)

/-! ### Writing and reading at once -/

/-- What is written between two states of a writer takes a reader from one of its states to another. -/
def Follows (w : Writer) (r : Reader) (w' : Writer) (r' : Reader) : Prop :=
  ∃ written, w'.out = w.out ++ written ∧ (∀ c ∈ written, IsDigit c)
    ∧ ∀ later label, Spells later r' label → Spells (written ++ later) r label

theorem Follows.of_out_eq {w w' : Writer} (r : Reader) (h : w'.out = w.out) : Follows w r w' r :=
  ⟨[], by rw [h, List.append_nil], nofun, fun _ _ h => h⟩

theorem Follows.trans {w w' w'' : Writer} {r r' r'' : Reader} (h : Follows w r w' r')
    (h' : Follows w' r' w'' r'') : Follows w r w'' r'' := by
  obtain ⟨written, hout, hdigits, hread⟩ := h
  obtain ⟨written', hout', hdigits', hread'⟩ := h'
  refine ⟨written ++ written', by rw [hout', hout, List.append_assoc],
    List.forall_mem_append.mpr ⟨hdigits, hdigits'⟩, fun later label hlater => ?_⟩
  rw [List.append_assoc]
  exact hread _ _ (hread' _ _ hlater)

/-- A writer on its way through a label for the code point `next`, and a reader of what it has written.
The reader has the characters that the writer is done with: of those that were passed the ones up to
this code point, of the others the ones before it. What the writer has counted since the last number
leads from the reader's place to the place for the next character. -/
structure Agrees (basic next : Nat) (passed rest : List Char) (w : Writer) (r : Reader) : Prop where
  out : r.out = passed.filter (·.toNat ≤ next) ++ rest.filter (·.toNat < next)
  handled : w.handled = r.out.length
  bias : w.bias = r.bias
  point : r.point ≤ next
  delta : r.place + w.delta
    = (next - r.point) * (r.out.length + 1) + (passed.filter (·.toNat ≤ next)).length
  started : basic ≤ w.handled
  first : (w.handled == basic) = (r.place == 0)

variable {basic next : Nat} {passed rest : List Char} {c : Char} {w : Writer} {r : Reader}

theorem pass_of_lt (h : c.toNat < next) :
    w.pass basic next c = { w with delta := w.delta + 1 } := if_pos h

theorem pass_of_eq (h : c.toNat = next) : w.pass basic next c =
    { out := w.out ++ number w.bias (w.delta + 1) 36 w.delta
      delta := 0
      bias := adapt w.delta (w.handled + 1) (w.handled == basic)
      handled := w.handled + 1 } := by
  rw [Writer.pass, if_neg (by omega), if_pos h]

theorem pass_of_gt (h : next < c.toNat) : w.pass basic next c = w := by
  rw [Writer.pass, if_neg (by omega), if_neg (by omega)]

theorem filter_le_concat_of_le (cs : List Char) (h : c.toNat ≤ next) :
    (cs ++ [c]).filter (·.toNat ≤ next) = cs.filter (·.toNat ≤ next) ++ [c] := by
  simp [h]

/-- The code point itself is written, and put where the way has led to. -/
theorem Agrees.put (h : Agrees basic next passed (c :: rest) w r) (heq : c.toNat = next) :
    ∃ r', Follows w r (w.pass basic next c) r'
      ∧ Agrees basic next (passed ++ [c]) rest (w.pass basic next c) r' := by
  obtain ⟨hout, hhandled, hbias, hpoint, hdelta, hstarted, hfirst⟩ := h
  have hpassed := filter_le_concat_of_le passed (Nat.le_of_eq heq)
  rw [List.filter_cons_of_neg (by simp [heq])] at hout
  generalize passed.filter (·.toNat ≤ next) = before at *
  rw [pass_of_eq heq]
  have hput : r.out.take before.length ++ c :: r.out.drop before.length
      = before ++ [c] ++ rest.filter (·.toNat < next) := by
    rw [hout, List.take_left, List.drop_left]
    simp
  refine ⟨r.put c before.length w.delta, ⟨_, rfl, isDigit_of_mem_number, fun later label hlater => ?_⟩,
    ?_, ?_, ?_, ?_, ?_, ?_, ?_⟩
  · rw [hbias]
    refine spells_number ?_ (by omega) (by rw [heq]; exact hdelta) hlater
    rw [hout, List.length_append]
    exact Nat.le_add_right _ _
  · rw [hpassed]
    exact hput
  · show w.handled + 1 = (r.put c before.length w.delta).out.length
    rw [hhandled, hout, Reader.put, hput]
    simp only [List.length_append, List.length_singleton]
    omega
  · show adapt _ _ _ = adapt _ _ _
    rw [hfirst, hhandled]
  · exact Nat.le_of_eq heq
  · show before.length + 1 + 0 = (next - c.toNat) * _ + _
    rw [hpassed, heq, Nat.sub_self, Nat.zero_mul, List.length_append, List.length_singleton]
    omega
  · exact Nat.le_succ_of_le hstarted
  · -- Behind the first number neither side counts as new any more.
    have hlate : w.handled + 1 ≠ basic := by omega
    rw [beq_eq_false_iff_ne.mpr hlate]
    rfl

/-- One character of the label. -/
theorem Agrees.pass (h : Agrees basic next passed (c :: rest) w r) :
    ∃ r', Follows w r (w.pass basic next c) r'
      ∧ Agrees basic next (passed ++ [c]) rest (w.pass basic next c) r' := by
  rcases Nat.lt_trichotomy c.toNat next with hlt | heq | hgt
  · -- A character that the reader has already lies on the way.
    obtain ⟨hout, hhandled, hbias, hpoint, hdelta, hstarted, hfirst⟩ := h
    have hpassed := filter_le_concat_of_le passed (Nat.le_of_lt hlt)
    rw [pass_of_lt hlt]
    refine ⟨r, .of_out_eq r rfl, ?_, hhandled, hbias, hpoint, ?_, hstarted, hfirst⟩
    · rw [hout, hpassed, List.append_assoc, List.singleton_append, List.filter_cons_of_pos]
      exact decide_eq_true hlt
    · rw [hpassed, List.length_append, List.length_singleton, ← Nat.add_assoc, ← Nat.add_assoc, hdelta]
  · exact h.put heq
  · -- A later code point leaves all as it is.
    obtain ⟨hout, hhandled, hbias, hpoint, hdelta, hstarted, hfirst⟩ := h
    have hpassed : (passed ++ [c]).filter (·.toNat ≤ next) = passed.filter (·.toNat ≤ next) := by
      simp [hgt]
    rw [pass_of_gt hgt]
    refine ⟨r, .of_out_eq r rfl, ?_, hhandled, hbias, hpoint, ?_, hstarted, hfirst⟩
    · rw [hout, hpassed, List.filter_cons_of_neg]
      simp [Nat.le_of_lt hgt]
    · rw [hpassed]
      exact hdelta

/-- The whole label, for one code point. -/
theorem Agrees.foldl (h : Agrees basic next passed rest w r) :
    ∃ r', Follows w r (rest.foldl (Writer.pass basic next) w) r'
      ∧ Agrees basic next (passed ++ rest) [] (rest.foldl (Writer.pass basic next) w) r' := by
  induction rest generalizing passed w r with
  | nil => exact ⟨r, .of_out_eq r rfl, by rwa [List.append_nil]⟩
  | cons c rest ih =>
    obtain ⟨r', hfollows, hagrees⟩ := h.pass
    obtain ⟨r'', hfollows', hagrees'⟩ := ih hagrees
    rw [List.append_assoc] at hagrees'
    exact ⟨r'', hfollows.trans hfollows', hagrees'⟩

variable {label : List Char}

/-- The way to a later code point, if no character of the label lies between. -/
theorem Agrees.skip {later : Nat} (h : Agrees basic next [] label w r) (hle : next ≤ later)
    (hnone : ∀ c ∈ label, c.toNat < later → c.toNat < next) :
    Agrees basic later [] label { w with delta := w.delta + (later - next) * (w.handled + 1) } r := by
  obtain ⟨hout, hhandled, hbias, hpoint, hdelta, hstarted, hfirst⟩ := h
  have hsame : label.filter (·.toNat < later) = label.filter (·.toNat < next) := by
    refine List.filter_congr fun c hc => ?_
    have := hnone c hc
    simp
    omega
  refine ⟨?_, hhandled, hbias, by omega, ?_, hstarted, hfirst⟩
  · rw [hout, hsame]
    rfl
  · show r.place + (w.delta + (later - next) * (w.handled + 1)) = _
    have hway : later - r.point = next - r.point + (later - next) := by omega
    rw [← Nat.add_assoc, hdelta, hhandled, hway, Nat.add_mul]
    simp only [List.filter_nil, List.length_nil]
    omega

/-- Behind the label, the writer goes on to the next code point. -/
theorem Agrees.again (h : Agrees basic next label [] w r) :
    Agrees basic (next + 1) [] label { w with delta := w.delta + 1 } r := by
  obtain ⟨hout, hhandled, hbias, hpoint, hdelta, hstarted, hfirst⟩ := h
  have hlength := congrArg List.length hout
  simp only [List.filter_nil, List.append_nil] at hout hlength
  refine ⟨?_, hhandled, hbias, by omega, ?_, hstarted, hfirst⟩
  · simp only [hout, List.filter_nil, List.nil_append, Nat.lt_succ_iff]
  · show r.place + (w.delta + 1) = _
    have hway : next + 1 - r.point = next - r.point + 1 := by omega
    rw [← Nat.add_assoc, hdelta, hway, Nat.add_mul, ← hlength]
    simp only [List.filter_nil, List.length_nil]
    omega

/-- All code points from `current` on: the label is complete then. -/
theorem follows_encodePoints {points : List Nat} {current : Nat} (hsorted : points.Pairwise (· < ·))
    (hpoints : ∀ k, k ∈ points ↔ current ≤ k ∧ ∃ c ∈ label, c.toNat = k)
    (h : Agrees basic current [] label w r) :
    ∃ r', Follows w r (encodePoints label basic points current w) r' ∧ r'.out = label := by
  induction points generalizing current w r with
  | nil =>
    refine ⟨r, .of_out_eq r rfl, ?_⟩
    rw [h.out, List.filter_nil, List.nil_append, List.filter_eq_self]
    intro c hc
    have hearly : ¬ current ≤ c.toNat := fun hle =>
      absurd ((hpoints c.toNat).mpr ⟨hle, c, hc, rfl⟩) List.not_mem_nil
    exact decide_eq_true (Nat.lt_of_not_le hearly)
  | cons next points ih =>
    obtain ⟨hfirst, hsorted⟩ := List.pairwise_cons.mp hsorted
    obtain ⟨hcurrent, -⟩ := (hpoints next).mp List.mem_cons_self
    -- the code points are all those of the label, in order, so none is passed over
    have hnone : ∀ c ∈ label, c.toNat < next → c.toNat < current := by
      intro c hc hlt
      by_contra hle
      rcases List.mem_cons.mp ((hpoints c.toNat).mpr ⟨Nat.le_of_not_lt hle, c, hc, rfl⟩) with heq | hmem
      · omega
      · have := hfirst _ hmem
        omega
    have hpoints' : ∀ k, k ∈ points ↔ next + 1 ≤ k ∧ ∃ c ∈ label, c.toNat = k := by
      intro k
      constructor
      · intro hk
        exact ⟨hfirst k hk, ((hpoints k).mp (List.mem_cons_of_mem _ hk)).2⟩
      · rintro ⟨hk, hc⟩
        rcases List.mem_cons.mp ((hpoints k).mpr ⟨by omega, hc⟩) with heq | hmem
        · omega
        · exact hmem
    -- to the next code point, through the label, and on behind it
    obtain ⟨r', hfollows, hagrees⟩ := (h.skip hcurrent hnone).foldl
    obtain ⟨r'', hfollows', hout⟩ := ih hsorted hpoints' hagrees.again
    exact ⟨r'', (Follows.of_out_eq r rfl).trans
      (hfollows.trans ((Follows.of_out_eq r' rfl).trans hfollows')), hout⟩

/-! ### Labels -/

theorem nodup_eraseDups (points : List Nat) : points.eraseDups.Nodup := by
  induction hlength : points.length using Nat.strongRecOn generalizing points with
  | ind n ih =>
    cases points with
    | nil => exact List.nodup_nil
    | cons k points =>
      have hshort := List.length_filter_le (fun j => !j == k) points
      rw [List.eraseDups_cons, List.nodup_cons]
      refine ⟨by simp [List.mem_eraseDups], ih _ ?_ _ rfl⟩
      rw [← hlength, List.length_cons]
      omega

theorem sorted_widePoints (label : List Char) : (widePoints label).Pairwise (· < ·) := by
  have hsorted : (widePoints label).Pairwise fun a b => decide (a ≤ b) = true :=
    List.pairwise_mergeSort (by simpa using fun _ _ _ => Nat.le_trans)
      (by simpa using Nat.le_total) _
  have hnodup : (widePoints label).Nodup :=
    (List.mergeSort_perm _ _).nodup_iff.mpr (nodup_eraseDups _)
  refine (hsorted.and hnodup).imp fun h => ?_
  exact Nat.lt_of_le_of_ne (of_decide_eq_true h.1) h.2

theorem mem_widePoints {label : List Char} {k : Nat} :
    k ∈ widePoints label ↔ 128 ≤ k ∧ ∃ c ∈ label, c.toNat = k := by
  simp [widePoints, List.mem_eraseDups, and_comm]

/-- A label is written as its characters of ASCII with a hyphen behind them, if there are any, and then
digits. The digits give the label back to a reader that has these characters. -/
theorem exists_encode_eq (label : List Char) : ∃ written,
    encode label = (if label.filter (·.toNat < 128) = [] then []
        else label.filter (·.toNat < 128) ++ ['-']) ++ written
      ∧ (∀ c ∈ written, IsDigit c)
      ∧ Spells written ⟨label.filter (·.toNat < 128), 128, 0, 72⟩ label := by
  let start : List Char := if (label.filter (·.toNat < 128)).length = 0 then []
    else label.filter (·.toNat < 128) ++ ['-']
  have hagrees : Agrees (label.filter (·.toNat < 128)).length 128 [] label
      ⟨start, 0, 72, (label.filter (·.toNat < 128)).length⟩
      ⟨label.filter (·.toNat < 128), 128, 0, 72⟩ :=
    ⟨rfl, rfl, rfl, Nat.le_refl _, by simp, Nat.le_refl _, by simp⟩
  obtain ⟨r', ⟨written, hout, hdigits, hread⟩, hlabel⟩ :=
    follows_encodePoints (sorted_widePoints label) (fun _ => mem_widePoints) hagrees
  refine ⟨written, ?_, hdigits, ?_⟩
  · rw [encode]
    simp only [← List.length_eq_zero_iff]
    exact hout
  · have hend := hread [] label (hlabel ▸ spells_nil r')
    rwa [List.append_nil] at hend

theorem isDigit_ne_hyphen {c : Char} (h : IsDigit c) : c ≠ '-' := by
  obtain ⟨n, hn, rfl⟩ := h
  have hdigits : ∀ n < 36, digit n ≠ '-' := by decide
  exact hdigits n hn

/-- The digits are what stands behind the last hyphen. -/
theorem decode?_append {ascii written : List Char} (hdigits : ∀ c ∈ written, IsDigit c) :
    decode? ((if ascii = [] then [] else ascii ++ ['-']) ++ written)
      = decodePoints written.length written ascii 128 0 72 := by
  have hfree : ∀ c ∈ written.reverse, (c != '-') = true := fun c hc =>
    bne_iff_ne.mpr (isDigit_ne_hyphen (hdigits c (List.mem_reverse.mp hc)))
  rw [decode?]
  split
  · next hnil =>
    rw [List.nil_append, List.takeWhile_eq_self_iff.mpr hfree, List.reverse_reverse]
    simp [hnil]
  · have htake : ((ascii ++ ['-']) ++ written).reverse.takeWhile (· != '-') = written.reverse := by
      rw [List.reverse_append, List.takeWhile_append_of_pos hfree, List.reverse_append]
      simp
    rw [htake, List.reverse_reverse]
    have hbasic : (ascii ++ ['-'] ++ written).take
        ((ascii ++ ['-'] ++ written).length - written.length - 1) = ascii := by
      have hlength : (ascii ++ ['-'] ++ written).length - written.length - 1 = ascii.length := by
        simp only [List.length_append, List.length_singleton]
        omega
      rw [hlength, List.append_assoc, List.take_left]
    rw [hbasic]

/-- A label is read back from what is written. -/
theorem decode?_encode (label : List Char) : decode? (encode label) = some label := by
  obtain ⟨written, hencode, hdigits, hspells⟩ := exists_encode_eq label
  rw [hencode, decode?_append hdigits]
  exact hspells _ (Nat.le_refl _)

/-- Nothing is written but characters of the label, hyphens and digits. -/
theorem mem_encode {label : List Char} {c : Char} (h : c ∈ encode label) :
    c ∈ label ∧ c.toNat < 128 ∨ c = '-' ∨ IsDigit c := by
  obtain ⟨written, hencode, hdigits, -⟩ := exists_encode_eq label
  rw [hencode, List.mem_append] at h
  rcases h with h | h
  · split at h
    · cases h
    · rcases List.mem_append.mp h with h | h
      · exact .inl (by simpa using h)
      · exact .inr (.inl (List.mem_singleton.mp h))
  · exact .inr (.inr (hdigits c h))

end ServiceCall.Punycode
