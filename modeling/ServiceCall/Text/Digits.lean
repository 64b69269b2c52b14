/-!
# Numbers in digits

The digits of a number in some base, with zeros before them up to a width, and what holds of them
digit by digit: the value that they spell, and that none but the number zero starts with a zero.
-/

namespace ServiceCall

-- A place counts a power of the base. Such powers are those of the core library, also in modules that
-- know the powers of monoids.
attribute [scoped instance (20000), default_instance 20000] instPowNat

/-- A number in decimal digits, with zeros before it up to a width. -/
def paddedDigits (width n : Nat) : List Char :=
  let digits := Nat.toDigits 10 n
  List.replicate (width - digits.length) '0' ++ digits

variable {base : Nat}

/-- A number is a single digit, or has the digits of a smaller number and one more. -/
theorem toDigits_induction (hbase : 1 < base) {motive : Nat → List Char → Prop}
    (digit : ∀ d < base, motive d [Nat.digitChar d])
    (more : ∀ n d, 0 < n → d < base → motive n (Nat.toDigits base n) →
      motive (base * n + d) (Nat.toDigits base n ++ [Nat.digitChar d])) (n : Nat) :
    motive n (Nat.toDigits base n) := by
  induction n using Nat.strongRecOn with
  | ind n ih =>
    by_cases hn : n < base
    · rw [Nat.toDigits_of_lt_base hn]
      exact digit n hn
    · rw [Nat.not_lt] at hn
      rw [Nat.toDigits_of_base_le hbase hn]
      have hpos : 0 < n / base := Nat.div_pos hn (by omega)
      have hsmall : n / base < n := Nat.div_lt_self (by omega) hbase
      have hdigit : n % base < base := Nat.mod_lt n (by omega)
      have hmore := more (n / base) (n % base) hpos hdigit (ih _ hsmall)
      rwa [Nat.div_add_mod] at hmore

/-- A numeral is made of digits of its base. -/
theorem exists_of_mem_toDigits (hbase : 1 < base) {n : Nat} {c : Char}
    (h : c ∈ Nat.toDigits base n) : ∃ d < base, c = Nat.digitChar d := by
  induction n using toDigits_induction hbase with
  | digit d hd => exact ⟨d, hd, List.mem_singleton.mp h⟩
  | more n d _ hd ih =>
    rcases List.mem_append.mp h with h | h
    · exact ih h
    · exact ⟨d, hd, List.mem_singleton.mp h⟩

/-- Digits spell the number that they are the digits of. -/
theorem foldl_toDigits (hbase : 1 < base) {value : Char → Nat}
    (hvalue : ∀ d < base, value (Nat.digitChar d) = d) (n : Nat) :
    (Nat.toDigits base n).foldl (fun sum c => base * sum + value c) 0 = n := by
  induction n using toDigits_induction hbase with
  | digit d hd => simp [hvalue d hd]
  | more n d _ hd ih => rw [List.foldl_append, ih, List.foldl_cons, List.foldl_nil, hvalue d hd]

/-- The first digit of a number is no zero, unless the number is. -/
theorem exists_head_toDigits (hbase : 1 < base) {n : Nat} (hn : 0 < n) :
    ∃ c rest, Nat.toDigits base n = c :: rest ∧ c ≠ '0' := by
  induction n using toDigits_induction hbase with
  | digit d hd =>
    refine ⟨_, [], rfl, ?_⟩
    intro h
    rw [Nat.digitChar_eq_zero] at h
    omega
  | more n d hpos _ ih =>
    obtain ⟨c, rest, hdigits, hc⟩ := ih hpos
    exact ⟨c, rest ++ [Nat.digitChar d], by rw [hdigits, List.cons_append], hc⟩

end ServiceCall
