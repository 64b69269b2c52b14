import Mathlib.Tactic.Tauto
import ServiceCall.Proofs.Text.Pieces
import ServiceCall.Url.Percent

/-!
# Escapes and the text behind them

If the percent sign is itself escaped, an escaped text can be read back byte by byte, so no two texts
are escaped alike.
-/

namespace ServiceCall.Percent

variable {set : Char → Bool}

/-! ### Reading back -/

theorem hexValue?_hexDigit : ∀ n < 16, hexValue? (hexDigit n) = some n := by decide

theorem decode_byte_append (b : UInt8) (rest : List Char) :
    decode (byte b ++ rest) = b :: decode rest := by
  have hb := b.toNat_lt
  have hhigh := hexValue?_hexDigit (b.toNat / 16) (by omega)
  have hlow := hexValue?_hexDigit (b.toNat % 16) (by omega)
  have hsum : 16 * (b.toNat / 16) + b.toNat % 16 = b.toNat := by omega
  rw [byte, List.cons_append, List.cons_append, List.cons_append, List.nil_append, decode,
    hhigh, hlow]
  dsimp only
  rw [hsum, UInt8.ofNat_toNat]

theorem decode_bytes_append (bytes : Bytes) (rest : List Char) :
    decode (bytes.flatMap byte ++ rest) = bytes ++ decode rest := by
  induction bytes with
  | nil => rfl
  | cons b bytes ih =>
    rw [List.flatMap_cons, List.append_assoc, decode_byte_append, ih, List.cons_append]

theorem decode_cons {c : Char} (hc : c ≠ '%') (rest : List Char) :
    decode (c :: rest) = String.utf8EncodeChar c ++ decode rest := by
  rw [decode]
  intro _ _ _ h _
  exact hc h

/-- The bytes of an escaped text are the bytes of the text. -/
theorem decode_encode (hset : set '%' = true) (cs : List Char) :
    decode (encode set cs) = cs.flatMap String.utf8EncodeChar := by
  induction cs with
  | nil => rfl
  | cons c cs ih =>
    rw [encode, List.flatMap_cons, ← encode, List.flatMap_cons]
    by_cases hc : set c = true
    · rw [if_pos hc, char, decode_bytes_append, ih]
    · have hne : c ≠ '%' := by
        rintro rfl
        exact hc hset
      rw [if_neg hc, List.singleton_append, decode_cons hne, ih]

/-- Texts of the same bytes are the same. -/
theorem utf8_injective :
    Function.Injective fun cs : List Char => cs.flatMap String.utf8EncodeChar := by
  intro a b h
  have hbytes : a.utf8Encode = b.utf8Encode := by
    simp only [List.utf8Encode]
    exact congrArg _ h
  rw [← String.toByteArray_ofList, ← String.toByteArray_ofList, String.toByteArray_inj] at hbytes
  exact String.ofList_injective hbytes

theorem encode_injective (hset : set '%' = true) : Function.Injective (encode set) := by
  intro a b h
  apply utf8_injective
  simp only [← decode_encode hset, h]

/-- No two segments of a web address are escaped alike. -/
theorem encode_inSpecialSegment_injective : Function.Injective (encode inSpecialSegment) :=
  encode_injective rfl

/-! ### What is left of the escaped characters -/

/-- An escape is a percent sign and two digits. -/
theorem forall_mem_byte {P : Char → Prop} (hpercent : P '%') (hdigits : ∀ n < 16, P (hexDigit n))
    (b : UInt8) : ∀ c ∈ byte b, P c := by
  have hb := b.toNat_lt
  have hhigh : P (hexDigit (b.toNat / 16)) := hdigits _ (by omega)
  have hlow : P (hexDigit (b.toNat % 16)) := hdigits _ (by omega)
  simp only [byte, List.forall_mem_cons]
  exact ⟨hpercent, hhigh, hlow, List.forall_mem_nil P⟩

/-- What holds of escapes and of all characters that are not escaped holds of the escaped text. -/
theorem forall_mem_encode {P : Char → Prop} {cs : List Char} (hpercent : P '%')
    (hdigits : ∀ n < 16, P (hexDigit n)) (hfree : ∀ c ∈ cs, set c = false → P c) :
    ∀ c ∈ encode set cs, P c := by
  intro c h
  obtain ⟨d, hd, hc⟩ := List.mem_flatMap.mp h
  split at hc
  · obtain ⟨b, -, hb⟩ := List.mem_flatMap.mp hc
    exact forall_mem_byte hpercent hdigits b c hb
  · next hset =>
    rw [List.mem_singleton] at hc
    subst hc
    exact hfree c hd (Bool.eq_false_iff.mpr hset)

/-- A text without characters of the set is its own escaped text. -/
theorem encode_eq_self {cs : List Char} (h : ∀ c ∈ cs, set c = false) : encode set cs = cs := by
  apply flatMap_eq_self
  intro c hc
  rw [if_neg (by rw [h c hc]; decide)]

/-- Nothing that is left of a path is blank or ends it. -/
theorem visible_of_inPath {c : Char} (h : inPath c = false) : 32 < c.toNat ∧ c ≠ '?' ∧ c ≠ '#' := by
  have hspace : c ≠ ' ' := by
    rintro rfl
    exact absurd h (by decide)
  have hne : c.toNat ≠ 32 := fun h => hspace (Char.toNat_inj.mp h)
  simp [inPath, inQuery, isControl] at h
  refine ⟨by omega, ?_⟩
  tauto

theorem utf8EncodeChar_ne_nil (c : Char) : String.utf8EncodeChar c ≠ [] := by
  intro hnil
  have hsize := String.length_utf8EncodeChar c
  rw [hnil, List.length_nil] at hsize
  exact absurd hsize (Nat.ne_of_lt c.utf8Size_pos)

/-- Only the empty text is written as nothing. -/
theorem eq_nil_of_encode {cs : List Char} (h : encode set cs = []) : cs = [] := by
  rw [List.eq_nil_iff_forall_not_mem]
  intro c hc
  have hnone := List.flatMap_eq_nil_iff.mp h c hc
  split at hnone
  · cases hbytes : String.utf8EncodeChar c with
    | nil => exact utf8EncodeChar_ne_nil c hbytes
    | cons b bytes =>
      rw [char, hbytes] at hnone
      cases hnone
  · cases hnone

/-- Only the empty text has no bytes. -/
theorem eq_nil_of_decode {cs : List Char} (h : decode cs = []) : cs = [] := by
  fun_cases decode cs with
  | case1 => rfl
  | case2 a b rest high low hhigh hlow =>
    rw [decode, hhigh, hlow] at h
    cases h
  | case3 a b rest hnone =>
    rw [decode] at h
    split at h
    · cases h
    · exact absurd (List.append_eq_nil_iff.mp h).1 (utf8EncodeChar_ne_nil '%')
  | case4 c rest hother =>
    rw [decode.eq_3 c rest hother] at h
    exact absurd (List.append_eq_nil_iff.mp h).1 (utf8EncodeChar_ne_nil c)

/-- A text without a percent sign has the bytes of its characters. -/
theorem decode_of_not_mem {cs : List Char} (h : '%' ∉ cs) :
    decode cs = cs.flatMap String.utf8EncodeChar := by
  induction cs with
  | nil => rfl
  | cons c cs ih =>
    rw [List.mem_cons, not_or] at h
    rw [decode_cons (Ne.symm h.1), ih h.2, List.flatMap_cons]

end ServiceCall.Percent
