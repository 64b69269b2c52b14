/-!
# Letters and digits of ASCII

The classes of characters as stretches of code points. The small letter of a capital stands thirty-two
code points behind it; every other character is its own small letter.
-/

namespace ServiceCall

theorem isDigit_iff {c : Char} : c.isDigit = true ↔ 48 ≤ c.toNat ∧ c.toNat ≤ 57 := by
  simp [Char.isDigit, UInt32.le_iff_toNat_le]

theorem isAlpha_iff {c : Char} : c.isAlpha = true
    ↔ 65 ≤ c.toNat ∧ c.toNat ≤ 90 ∨ 97 ≤ c.toNat ∧ c.toNat ≤ 122 := by
  have hupper : c.isUpper = true ↔ 65 ≤ c.toNat ∧ c.toNat ≤ 90 := by
    show decide ('A'.val ≤ c.val ∧ c.val ≤ 'Z'.val) = true ↔ _
    simp [UInt32.le_iff_toNat_le]
  have hlower : c.isLower = true ↔ 97 ≤ c.toNat ∧ c.toNat ≤ 122 := by
    show (decide ('a'.val ≤ c.val) && decide (c.val ≤ 'z'.val)) = true ↔ _
    simp [UInt32.le_iff_toNat_le]
  show (c.isUpper || c.isLower) = true ↔ _
  rw [Bool.or_eq_true, hupper, hlower]

theorem toNat_toLower (c : Char) : c.toLower.toNat
    = if 65 ≤ c.toNat ∧ c.toNat ≤ 90 then c.toNat + 32 else c.toNat := by
  have hcapital : 65 ≤ c.toNat ∧ c.toNat ≤ 90 ↔ c.val ≥ 'A'.val ∧ c.val ≤ 'Z'.val := by
    simp [UInt32.le_iff_toNat_le]
  delta Char.toLower
  by_cases hupper : c.val ≥ 'A'.val ∧ c.val ≤ 'Z'.val
  · have hbound : c.val.toNat ≤ 90 := (hcapital.mpr hupper).2
    have hshift : ('a'.val - 'A'.val).toNat = 32 := by decide
    rw [dif_pos hupper, if_pos (hcapital.mpr hupper), Char.toNat, UInt32.toNat_add, hshift]
    exact Nat.mod_eq_of_lt (by omega)
  · rw [dif_neg hupper, if_neg (mt hcapital.mp hupper)]

theorem toLower_toLower (c : Char) : c.toLower.toLower = c.toLower := by
  apply Char.toNat_inj.mp
  rw [toNat_toLower c.toLower, if_neg]
  rw [toNat_toLower c]
  split <;> omega

theorem isAlpha_toLower {c : Char} (h : c.isAlpha = true) : c.toLower.isAlpha = true := by
  rw [isAlpha_iff] at h ⊢
  rw [toNat_toLower]
  split <;> omega

end ServiceCall
