import Mathlib.Data.List.Induction
import Mathlib.Data.Nat.Basic
import ServiceCall.Text.Digits
import ServiceCall.Proofs.Text.Pieces
import ServiceCall.Url.Host

/-!
# Addresses read back

An address of four bytes or of eight pieces is read back from its text as the same number or pieces.
For eight pieces, the text leaves out a run of zeros, of which the reader knows only that it fills the
address up.
-/

namespace ServiceCall.Host

/-! ### Numerals -/

theorem hexValue?_digitChar : ∀ d < 16, Percent.hexValue? (Nat.digitChar d) = some d := by decide

/-- A numeral has its own value, in every base up to sixteen. -/
theorem valueIn_toDigits {base : Nat} (hbase : 1 < base) (hhex : base ≤ 16) (n : Nat) :
    valueIn base (Nat.toDigits base n) = n := by
  apply foldl_toDigits hbase
  intro d hd
  rw [hexValue?_digitChar d (by omega), Option.getD_some]

theorem hexValue?_lt {c : Char} {d : Nat} (h : Percent.hexValue? c = some d) : d < 16 := by
  simp only [Percent.hexValue?, Char.isDigit, Bool.and_eq_true, decide_eq_true_eq, Char.le_def,
    ge_iff_le, UInt32.le_iff_toNat_le] at h
  split at h
  · next hdigit =>
    change 48 ≤ c.toNat ∧ c.toNat ≤ 57 at hdigit
    have hd : c.toNat - 48 = d := Option.some.inj h
    omega
  · split at h
    · next hsmall =>
      change 97 ≤ c.toNat ∧ c.toNat ≤ 102 at hsmall
      have hd : c.toNat - 97 + 10 = d := Option.some.inj h
      omega
    · split at h
      · next hcapital =>
        change 65 ≤ c.toNat ∧ c.toNat ≤ 70 at hcapital
        have hd : c.toNat - 65 + 10 = d := Option.some.inj h
        omega
      · cases h

theorem valueIn_concat (base : Nat) (cs : List Char) (c : Char) :
    valueIn base (cs ++ [c]) = base * valueIn base cs + (Percent.hexValue? c).getD 0 := by
  simp [valueIn, List.foldl_append]

/-- Hexadecimal digits spell a number below the power of their count. -/
theorem valueIn_lt (cs : List Char) : valueIn 16 cs < 16 ^ cs.length := by
  induction cs using List.reverseRecOn with
  | nil => decide
  | append_singleton cs c ih =>
    have hdigit : (Percent.hexValue? c).getD 0 < 16 := by
      cases hc : Percent.hexValue? c with
      | none => decide
      | some d => exact hexValue?_lt hc
    rw [valueIn_concat, List.length_append, List.length_singleton, Nat.pow_succ]
    omega

/-! ### Four bytes -/

/-- A decimal is never taken for a number in another base. -/
theorem ipv4Number?_decimal (n : Nat) : ipv4Number? (decimal n) = some n := by
  obtain rfl | hn := Nat.eq_zero_or_pos n
  · rfl
  · obtain ⟨c, rest, hdigits, hc⟩ : ∃ c rest, Nat.toDigits 10 n = c :: rest ∧ c ≠ '0' :=
      exists_head_toDigits (by decide) hn
    have hvalue : valueIn 10 (c :: rest) = n := by
      rw [← hdigits, valueIn_toDigits (by decide) (by decide)]
    rw [decimal, hdigits, ipv4Number?]
    · rw [if_neg, hvalue]
      simp only [List.isEmpty_cons, Bool.false_or, Bool.not_eq_true', Bool.not_eq_false]
      rw [List.all_eq_true, ← hdigits]
      intro x hx
      obtain ⟨d, hd, rfl⟩ := exists_of_mem_toDigits (by decide) hx
      rw [hexValue?_digitChar d (by omega)]
      exact decide_eq_true hd
    · exact fun _ h => hc (List.cons.inj h).1
    · exact fun _ h => hc (List.cons.inj h).1
    · exact fun _ _ h => hc (List.cons.inj h).1

/-- Bytes from place `i` on and a number that fills the places behind them stay below the power of
all places. -/
theorem foldl_bytes_le {bytes : List Nat} (hbytes : ∀ b ∈ bytes, b ≤ 255) (sum i : Nat)
    (hi : i + bytes.length ≤ 4) :
    (bytes.zipIdx i).foldl (fun sum (n, i) => sum + n * 256 ^ (3 - i)) sum
        + 256 ^ (4 - (i + bytes.length)) ≤ sum + 256 ^ (4 - i) := by
  induction bytes generalizing sum i with
  | nil => exact le_refl _
  | cons b bytes ih =>
    rw [List.length_cons] at hi ⊢
    obtain ⟨hb, hbytes⟩ := List.forall_mem_cons.mp hbytes
    have hrest := ih hbytes (sum + b * 256 ^ (3 - i)) (i + 1) (by omega)
    have hplace : 4 - i = (3 - i) + 1 := by omega
    have hbyte : (b + 1) * 256 ^ (3 - i) ≤ 256 * 256 ^ (3 - i) :=
      Nat.mul_le_mul_right _ (by omega)
    rw [show i + 1 + bytes.length = i + (bytes.length + 1) by omega,
      show 4 - (i + 1) = 3 - i by omega] at hrest
    rw [List.zipIdx_cons, List.foldl_cons, hplace, Nat.pow_succ]
    rw [Nat.add_mul, Nat.one_mul] at hbyte
    dsimp only at hrest ⊢
    omega

/-- The last number fills the bytes that the others leave. -/
theorem ipv4Address?_concat (leading : List Nat) (last : Nat) :
    ipv4Address? (leading ++ [last]) =
      if 3 < leading.length ∨ 256 ^ (4 - leading.length) ≤ last ∨ ∃ b ∈ leading, 255 < b then none
      else some (leading.zipIdx.foldl (fun sum (n, i) => sum + n * 256 ^ (3 - i)) last) := by
  have hreverse : (leading ++ [last]).reverse = last :: leading.reverse := by simp
  rw [ipv4Address?, hreverse]
  dsimp only
  rw [List.reverse_reverse, List.length_append, List.length_singleton]
  have hcount : 4 < leading.length + 1 ↔ 3 < leading.length := by omega
  simp only [hcount, List.any_eq_true, decide_eq_true_eq]

/-- An address fits into its four bytes. -/
theorem ipv4Address?_lt {numbers : List Nat} {address : Nat}
    (h : ipv4Address? numbers = some address) : address < 2 ^ 32 := by
  obtain rfl | ⟨leading, last, rfl⟩ := List.eq_nil_or_concat numbers
  · cases h
  · rw [List.concat_eq_append, ipv4Address?_concat] at h
    split at h
    · cases h
    · next hbounds =>
      simp only [not_or, not_lt, not_le, not_exists, not_and] at hbounds
      obtain ⟨hcount, hlast, hleading⟩ := hbounds
      have hfold := foldl_bytes_le hleading last 0 (by omega)
      rw [Nat.zero_add] at hfold
      cases h
      dsimp only at hfold ⊢
      omega

/-- Four bytes give the address that they are the bytes of. -/
theorem ipv4Address?_bytes {address : Nat} (h : address < 2 ^ 32) :
    ipv4Address? [address / 2 ^ 24 % 256, address / 2 ^ 16 % 256, address / 2 ^ 8 % 256,
      address % 256] = some address := by
  have hconcat := ipv4Address?_concat
    [address / 2 ^ 24 % 256, address / 2 ^ 16 % 256, address / 2 ^ 8 % 256] (address % 256)
  rw [if_neg] at hconcat
  · rw [List.cons_append, List.cons_append, List.cons_append, List.nil_append] at hconcat
    rw [hconcat]
    congr 1
    simp only [List.zipIdx_cons, List.zipIdx_nil, List.foldl_cons, List.foldl_nil]
    omega
  · simp only [List.length_cons, List.length_nil, List.mem_cons, List.not_mem_nil, or_false]
    rintro (h | h | ⟨b, rfl | rfl | rfl, h⟩) <;> omega

/-! ### Runs of zeros -/

/-- The run, told by start and length, is one of zeros. -/
def ZeroRun (pieces : List Nat) (run : Nat × Nat) : Prop :=
  ∃ front back, pieces = front ++ List.replicate run.2 0 ++ back ∧ front.length = run.1

theorem ZeroRun.append {pieces : List Nat} {run : Nat × Nat} (h : ZeroRun pieces run)
    (more : List Nat) : ZeroRun (pieces ++ more) run := by
  obtain ⟨front, back, rfl, hfront⟩ := h
  exact ⟨front, back ++ more, by simp, hfront⟩

/-- A run of zeros at the end. -/
theorem zeroRun_of_suffix {seen : List Nat} {n : Nat} (h : List.replicate n 0 <:+ seen) :
    ZeroRun seen (seen.length - n, n) := by
  obtain ⟨front, rfl⟩ := h
  exact ⟨front, [], by simp, by simp⟩

/-- The longer one of the best run so far and the run at the end. -/
theorem ZeroRun.better {seen : List Nat} {n : Nat} {best : Nat × Nat} (hbest : ZeroRun seen best)
    (hopen : List.replicate n 0 <:+ seen) :
    ZeroRun seen (if best.2 < n then (seen.length - n, n) else best) := by
  split
  · exact zeroRun_of_suffix hopen
  · exact hbest

/-- What is found behind pieces that have been seen is a run of zeros in all of them. The invariant:
the best run so far is one, and so are the last `n` pieces that have been seen. -/
theorem zeroRun_longestRun {seen pieces : List Nat} {n : Nat} {best : Nat × Nat}
    (hbest : ZeroRun seen best) (hopen : List.replicate n 0 <:+ seen) :
    ZeroRun (seen ++ pieces) (longestRun pieces seen.length best n) := by
  induction pieces generalizing seen n best with
  | nil =>
    rw [List.append_nil]
    exact hbest.better hopen
  | cons p pieces ih =>
    have hnext : (seen ++ [p]).length = seen.length + 1 := by simp
    rw [longestRun, ← hnext, List.append_cons]
    split
    · next hp =>
      have hlonger : List.replicate (n + 1) 0 <:+ seen ++ [p] := by
        rw [List.replicate_succ', hp]
        exact (List.suffix_append_inj_of_length_eq rfl).mpr ⟨hopen, rfl⟩
      exact ih (hbest.append [p]) hlonger
    · exact ih ((hbest.better hopen).append [p]) List.nil_suffix

/-! ### Pieces -/

/-- The text of one piece. -/
abbrev hex (p : Nat) : List Char := Nat.toDigits 16 p

theorem ne_of_mem_hex {p : Nat} {c : Char} (h : c ∈ hex p) : c ≠ ':' ∧ c ≠ '.' := by
  obtain ⟨d, hd, rfl⟩ := exists_of_mem_toDigits (by decide) h
  have hsigns : ∀ d < 16, Nat.digitChar d ≠ ':' ∧ Nat.digitChar d ≠ '.' := by decide
  exact hsigns d hd

theorem piecesText_eq (pieces : List Nat) :
    piecesText pieces = [':'].intercalate (pieces.map hex) := rfl

theorem piecesText_cons_cons (p q : Nat) (pieces : List Nat) :
    piecesText (p :: q :: pieces) = hex p ++ ':' :: piecesText (q :: pieces) := by
  rw [piecesText_eq, List.map_cons, List.map_cons, List.intercalate_cons_cons, List.append_assoc]
  rfl

/-- A piece that fits into sixteen bits is read back. -/
theorem piece?_hex {p : Nat} (h : p < 65536) : piece? (hex p) = some p := by
  have hlength : (hex p).length ≤ 4 := (Nat.length_toDigits_le_iff (by decide) (by decide)).mpr h
  have hdigits : (hex p).all (fun c => (Percent.hexValue? c).isSome) = true := by
    rw [List.all_eq_true]
    intro c hc
    obtain ⟨d, hd, rfl⟩ := exists_of_mem_toDigits (by decide) hc
    rw [hexValue?_digitChar d hd]
    rfl
  rw [piece?, if_neg, valueIn_toDigits (by decide) (by decide)]
  simp only [hdigits, List.isEmpty_iff, Nat.toDigits_ne_nil, Bool.or_eq_true, decide_eq_true_eq]
  simp
  omega

theorem lastPieces?_hex {p : Nat} (h : p < 65536) : lastPieces? (hex p) = some [p] := by
  have hdot : (hex p).contains '.' = false := by
    rw [Bool.eq_false_iff, ne_eq, List.contains_iff_mem]
    exact fun hmem => (ne_of_mem_hex hmem).2 rfl
  rw [lastPieces?, hdot, piece?_hex h]
  rfl

/-- Pieces are read back from their text, also where the last of them could be an address of four
bytes. -/
theorem pieces?_piecesText (final : Bool) {pieces : List Nat} (h : ∀ p ∈ pieces, p < 65536) :
    pieces? final (piecesText pieces) = some pieces := by
  -- the last piece is split off, since it may be read in another way than the others
  obtain rfl | ⟨front, last, rfl⟩ := List.eq_nil_or_concat pieces
  · rfl
  rw [List.concat_eq_append] at h ⊢
  have hgroups : (piecesText (front ++ [last])).splitOn ':' = (front ++ [last]).map hex := by
    apply List.splitOn_intercalate
    · intro group hgroup hcolon
      obtain ⟨p, -, rfl⟩ := List.mem_map.mp hgroup
      exact (ne_of_mem_hex hcolon).1 rfl
    · simp
  have hfilled : (piecesText (front ++ [last])).isEmpty = false := by
    rw [List.isEmpty_eq_false_iff]
    intro hempty
    have hnone : [] ∈ (front ++ [last]).map hex := by
      rw [← hgroups, hempty]
      exact List.mem_singleton_self _
    obtain ⟨p, -, hp⟩ := List.mem_map.mp hnone
    exact Nat.toDigits_ne_nil hp
  have hreverse : ((front ++ [last]).map hex).reverse = hex last :: (front.map hex).reverse := by
    simp
  have hfront : (front.map hex).mapM piece? = some front :=
    mapM_map_eq_some fun p hp => piece?_hex (h p (List.mem_append_left _ hp))
  have hlast : last < 65536 := h last (by simp)
  rw [pieces?, hfilled, hgroups]
  dsimp only
  rw [hreverse]
  dsimp only
  rw [List.reverse_reverse, hfront]
  cases final with
  | true => simp [lastPieces?_hex hlast]
  | false => simp [piece?_hex hlast]

theorem aroundGap?_append {cs : List Char} (h : ':' ∉ cs) (rest : List Char) :
    aroundGap? (cs ++ rest)
      = (aroundGap? rest).map fun (before, behind) => (cs ++ before, behind) := by
  induction cs with
  | nil => simp
  | cons c cs ih =>
    rw [List.mem_cons, not_or] at h
    rw [List.cons_append, aroundGap?, ih h.2, Option.map_map]
    · rfl
    · exact fun _ hc _ => h.1 hc.symm

/-- A text of pieces holds no gap, so the first gap is found behind it. -/
theorem aroundGap?_piecesText_append (p : Nat) (pieces : List Nat) (rest : List Char) :
    aroundGap? (piecesText (p :: pieces) ++ rest)
      = (aroundGap? rest).map fun (before, behind) => (piecesText (p :: pieces) ++ before, behind) := by
  have hcolon : ∀ p, ':' ∉ hex p := fun p h => (ne_of_mem_hex h).1 rfl
  induction pieces generalizing p with
  | nil =>
    rw [piecesText_eq, List.map_singleton, List.intercalate_singleton]
    exact aroundGap?_append (hcolon p) rest
  | cons q pieces ih =>
    rw [piecesText_cons_cons, List.append_assoc, List.cons_append, aroundGap?_append (hcolon p),
      aroundGap?, ih, Option.map_map, Option.map_map]
    · simp [Function.comp_def]
    · -- two colons in a row would need a piece without digits
      intro tail _ h
      obtain ⟨c, digits, hq⟩ : ∃ c digits, hex q = c :: digits :=
        List.exists_cons_of_ne_nil Nat.toDigits_ne_nil
      rw [piecesText_eq, List.map_cons, hq, List.intercalate_cons_cons_left] at h
      have hc : c = ':' := (List.cons.inj h).1
      exact hcolon q (by rw [hq, hc]; exact List.mem_cons_self)

/-! ### Eight pieces -/

/-- An address that eight pieces can have. -/
structure IsAddress (pieces : List Nat) : Prop where
  length : pieces.length = 8
  bound : ∀ p ∈ pieces, p < 65536

theorem aroundGap?_piecesText {pieces : List Nat} (h : pieces ≠ []) :
    aroundGap? (piecesText pieces) = none := by
  obtain ⟨p, rest, rfl⟩ := List.exists_cons_of_ne_nil h
  rw [← List.append_nil (piecesText (p :: rest)), aroundGap?_piecesText_append]
  rfl

theorem aroundGap?_gap (front : List Nat) (behind : List Char) :
    aroundGap? (piecesText front ++ ':' :: ':' :: behind) = some (piecesText front, behind) := by
  cases front with
  | nil => rfl
  | cons p front => simp [aroundGap?_piecesText_append, aroundGap?]

/-- Eight pieces are read back from their text, with the zeros that it leaves out. -/
theorem ipv6Pieces?_ipv6Text {pieces : List Nat} (h : IsAddress pieces) :
    ipv6Pieces? (ipv6Text pieces) = some pieces := by
  have hrun : ZeroRun ([] ++ pieces) (longestRun pieces ([] : List Nat).length (0, 0) 0) :=
    zeroRun_longestRun ⟨[], [], rfl, rfl⟩ List.nil_suffix
  rw [List.nil_append, List.length_nil] at hrun
  rw [ipv6Text]
  generalize longestRun pieces 0 (0, 0) 0 = run at hrun ⊢
  obtain ⟨start, length⟩ := run
  dsimp only
  -- a single zero is written out, a longer run stands between two colons with nothing in it
  split
  · have hfilled : pieces ≠ [] := by
      rintro rfl
      cases h.length
    rw [ipv6Pieces?, aroundGap?_piecesText hfilled]
    dsimp only
    rw [pieces?_piecesText true h.bound]
    simp [h.length]
  · next hlength =>
    obtain ⟨front, back, rfl, rfl⟩ := hrun
    dsimp only at h hlength ⊢
    have hfront : (front ++ List.replicate length 0 ++ back).take front.length = front := by simp
    have hback : (front ++ List.replicate length 0 ++ back).drop (front.length + length) = back := by
      simp
    have hcount : front.length + length + back.length = 8 := by
      rw [← h.length]
      simp [Nat.add_assoc]
    have hfrontBound : ∀ p ∈ front, p < 65536 := fun p hp => h.bound p (by simp [hp])
    have hbackBound : ∀ p ∈ back, p < 65536 := fun p hp => h.bound p (by simp [hp])
    have hzeros : 8 - front.length - back.length = length := by omega
    rw [hfront, hback, ipv6Pieces?, aroundGap?_gap]
    dsimp only
    rw [pieces?_piecesText false hfrontBound, pieces?_piecesText true hbackBound]
    simp only [Option.bind_eq_bind, Option.bind_some, hzeros]
    rw [if_neg (by omega)]

/-! ### What is read as an address -/

theorem lt_of_piece? {cs : List Char} {p : Nat} (h : piece? cs = some p) : p < 65536 := by
  rw [piece?] at h
  split at h
  · cases h
  · next hsound =>
    cases h
    simp only [Bool.or_eq_true, decide_eq_true_eq, not_or, not_lt] at hsound
    calc valueIn 16 cs < 16 ^ cs.length := valueIn_lt cs
      _ ≤ 16 ^ 4 := Nat.pow_le_pow_right (by decide) hsound.1.2

theorem lt_of_decimalByte? {cs : List Char} {b : Nat} (h : decimalByte? cs = some b) : b < 256 := by
  rw [decimalByte?] at h
  split at h
  · cases h
  · exact of_decide_eq_true (Option.filter_eq_some_iff.mp h).2

theorem lt_of_lastPieces? {cs : List Char} {pieces : List Nat} (h : lastPieces? cs = some pieces) :
    ∀ p ∈ pieces, p < 65536 := by
  intro p hp
  rw [lastPieces?] at h
  split at h
  · split at h
    · next a b c d hbytes =>
      have hbyte : ∀ n ∈ [a, b, c, d], n < 256 := by
        intro n hn
        obtain ⟨text, -, htext⟩ := exists_of_mem_mapM hbytes hn
        exact lt_of_decimalByte? htext
      simp only [List.forall_mem_cons] at hbyte
      cases h
      simp only [List.mem_cons, List.not_mem_nil, or_false] at hp
      omega
    · cases h
  · obtain ⟨own, hown, rfl⟩ := Option.map_eq_some_iff.mp h
    rw [List.mem_singleton.mp hp]
    exact lt_of_piece? hown

theorem lt_of_pieces? {final : Bool} {cs : List Char} {pieces : List Nat}
    (h : pieces? final cs = some pieces) : ∀ p ∈ pieces, p < 65536 := by
  intro p hp
  rw [pieces?] at h
  split at h
  · cases h
    cases hp
  · dsimp only at h
    split at h
    · cases h
      cases hp
    · next last leading hgroups =>
      obtain ⟨front, hfront, h⟩ := Option.bind_eq_some_iff.mp h
      have hback : ∃ back, pieces = front ++ back ∧ ∀ p ∈ back, p < 65536 := by
        split at h
        · obtain ⟨back, hback, h⟩ := Option.bind_eq_some_iff.mp h
          cases h
          exact ⟨back, rfl, lt_of_lastPieces? hback⟩
        · obtain ⟨back, hback, h⟩ := Option.bind_eq_some_iff.mp h
          obtain ⟨own, hown, rfl⟩ := Option.map_eq_some_iff.mp hback
          cases h
          refine ⟨[own], rfl, fun p hp => ?_⟩
          rw [List.mem_singleton.mp hp]
          exact lt_of_piece? hown
      obtain ⟨back, rfl, hback⟩ := hback
      rcases List.mem_append.mp hp with hp | hp
      · obtain ⟨text, -, htext⟩ := exists_of_mem_mapM hfront hp
        exact lt_of_piece? htext
      · exact hback p hp

/-- Whatever is read as an address of eight pieces is one. -/
theorem isAddress_of_ipv6Pieces? {cs : List Char} {pieces : List Nat}
    (h : ipv6Pieces? cs = some pieces) : IsAddress pieces := by
  rw [ipv6Pieces?] at h
  split at h
  · obtain ⟨hread, hlength⟩ := Option.filter_eq_some_iff.mp h
    exact ⟨of_decide_eq_true hlength, lt_of_pieces? hread⟩
  · obtain ⟨front, hfront, h⟩ := Option.bind_eq_some_iff.mp h
    obtain ⟨back, hback, h⟩ := Option.bind_eq_some_iff.mp h
    split at h
    · cases h
    · next hcount =>
      cases h
      refine ⟨by simp; omega, fun p hp => ?_⟩
      simp only [List.mem_append, List.mem_replicate] at hp
      rcases hp with (hp | ⟨-, rfl⟩) | hp
      · exact lt_of_pieces? hfront p hp
      · decide
      · exact lt_of_pieces? hback p hp

end ServiceCall.Host
