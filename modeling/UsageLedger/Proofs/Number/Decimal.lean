/-
UsageLedger/Proofs/Number/Decimal.lean

Decimal numbers are read as the nearest number of double precision.  Those that are
settled by their order of magnitude alone are beyond the range, or so small that zero
is the nearest (`exists_ofDecimal_of_lt`, `ofDecimal_of_overflow_le`).
-/
import UsageLedger.Number.Decimal
import UsageLedger.Proofs.Number.Rounded
import UsageLedger.Proofs.Text.Aligned

namespace UsageLedger.Number.Binary64

variable {digits places : ℕ}

/-! ### Orders of magnitude -/

theorem digitCount_eq (n : ℕ) : digitCount n = (Nat.toDigits 10 n).length := Text.length_toString_nat n

theorem lt_ten_pow_digitCount (n : ℕ) : n < 10 ^ digitCount n := by
  rw [digitCount_eq]
  exact (Nat.length_toDigits_le_iff (by decide) Nat.length_toDigits_pos).1 le_rfl

theorem ten_pow_le {n : ℕ} (hn : n ≠ 0) : 10 ^ (digitCount n - 1) ≤ n := by
  rcases Nat.eq_zero_or_pos (digitCount n - 1) with hone | hmore
  · rw [hone]
    exact Nat.pos_of_ne_zero hn
  · by_contra hlt
    have hshort := (Nat.length_toDigits_le_iff (by decide) hmore).2 (not_le.1 hlt)
    rw [← digitCount_eq] at hshort
    omega

theorem scaled_lt : (digits : ℚ) / 10 ^ places < 10 ^ ((digitCount digits : ℤ) - places) := by
  have hlt : (digits : ℚ) < 10 ^ digitCount digits := by exact_mod_cast lt_ten_pow_digitCount digits
  rw [zpow_sub₀ (by norm_num), zpow_natCast, zpow_natCast]
  gcongr

theorem le_scaled (hn : digits ≠ 0) :
    (10 : ℚ) ^ ((digitCount digits : ℤ) - places - 1) ≤ digits / 10 ^ places := by
  have hcount : 0 < digitCount digits := digitCount_eq digits ▸ Nat.length_toDigits_pos
  have hle : (10 : ℚ) ^ (digitCount digits - 1) ≤ digits := by exact_mod_cast ten_pow_le hn
  have hexponent :
      (digitCount digits : ℤ) - places - 1 = (digitCount digits - 1 : ℕ) - (places : ℕ) := by omega
  rw [hexponent, zpow_sub₀ (by norm_num), zpow_natCast, zpow_natCast]
  gcongr

theorem two_zpow_le_ten_zpow {k : ℤ} (h : 400 ≤ k) : (2 : ℚ) ^ (1200 : ℤ) ≤ 10 ^ k := by
  calc (2 : ℚ) ^ (1200 : ℤ) = (2 ^ (3 : ℤ)) ^ (400 : ℤ) := zpow_mul _ 3 400
    _ ≤ 10 ^ (400 : ℤ) := zpow_le_zpow_left₀ (by norm_num) (by norm_num) (by norm_num)
    _ ≤ 10 ^ k := zpow_le_zpow_right₀ (by norm_num) h

/-- A number of more than 400 digits in front of the point is beyond the range. -/
theorem overflow_le_ten_zpow {k : ℤ} (h : 400 ≤ k) : (overflow : ℚ) ≤ 10 ^ k := by
  calc (overflow : ℚ) = (2 ^ 53 - 1 / 2) * 2 ^ (971 : ℤ) := overflow_eq
    _ ≤ 2 ^ (53 : ℤ) * 2 ^ (971 : ℤ) := by gcongr; norm_num
    _ = 2 ^ (53 + 971 : ℤ) := (zpow_add₀ two_ne_zero _ _).symm
    _ ≤ 2 ^ (1200 : ℤ) := zpow_le_zpow_right₀ one_le_two (by norm_num)
    _ ≤ 10 ^ k := two_zpow_le_ten_zpow h

/-- A number of 400 zeros or more behind the point is nearest to zero. -/
theorem ten_zpow_le {k : ℤ} (h : k ≤ -400) : (10 : ℚ) ^ k ≤ 2 ^ (-1075 : ℤ) := by
  calc (10 : ℚ) ^ k = (10 ^ (-k))⁻¹ := by rw [zpow_neg, inv_inv]
    _ ≤ (2 ^ (1200 : ℤ))⁻¹ := inv_anti₀ (by positivity) (two_zpow_le_ten_zpow (by omega))
    _ = 2 ^ (-1200 : ℤ) := (zpow_neg _ _).symm
    _ ≤ 2 ^ (-1075 : ℤ) := zpow_le_zpow_right₀ one_le_two (by norm_num)

/-- The quotient that a number of decimal places is rounded as. -/
theorem cast_scaled (digits places : ℕ) :
    ((digits * 10 ^ (-(places : ℤ)).toNat : ℕ) : ℚ) / (10 ^ (- -(places : ℤ)).toNat : ℕ) =
      digits / 10 ^ places := by
  have hzero : (-(places : ℤ)).toNat = 0 := by omega
  have hplaces : (- -(places : ℤ)).toNat = places := by omega
  rw [hzero, hplaces, Nat.pow_zero, Nat.mul_one]
  push_cast
  rfl

/-! ### Reading -/

/-- A decimal number in the range is read as the nearest number. -/
theorem exists_ofDecimal_of_lt (h : (digits : ℚ) / 10 ^ places < overflow) :
    ∃ v, HasValue (ofDecimal false digits (-(places : ℤ))) v ∧ IsNearest v (digits / 10 ^ places) := by
  unfold ofDecimal
  by_cases hn : digits = 0
  · subst hn
    rw [if_pos rfl, Nat.cast_zero, zero_div]
    exact ⟨0, hasValue_zero, isNearest_zero le_rfl (by positivity)⟩
  · rw [if_neg hn]
    dsimp only
    split
    · exact absurd h (not_lt.2 ((overflow_le_ten_zpow (by omega)).trans (le_scaled hn)))
    · split
      · refine ⟨0, hasValue_zero, isNearest_zero (by positivity) ?_⟩
        exact scaled_lt.le.trans (ten_zpow_le (by omega))
      · rw [← cast_scaled] at h ⊢
        exact exists_nearest_of_lt (pow_ne_zero _ (by norm_num)) h

/-- A decimal number beyond the range is read as infinite. -/
theorem ofDecimal_of_overflow_le (h : (overflow : ℚ) ≤ digits / 10 ^ places) :
    ofDecimal false digits (-(places : ℤ)) = infinite false := by
  have hpos := overflow_pos.trans_le h
  unfold ofDecimal
  rw [if_neg (by rintro rfl; simp at hpos)]
  dsimp only
  split
  · rfl
  · split
    · -- So small a number is not beyond the range.
      have hsmall : (digits : ℚ) / 10 ^ places ≤ 2 ^ (-1075 : ℤ) :=
        scaled_lt.le.trans (ten_zpow_le (by omega))
      have hone : (2 : ℚ) ^ (-1075 : ℤ) ≤ 1 := zpow_le_one_of_nonpos₀ one_le_two (by norm_num)
      exact absurd one_lt_overflow (not_lt.2 ((h.trans hsmall).trans hone))
    · rw [← cast_scaled] at h
      exact nearest_of_overflow_le false (pow_ne_zero _ (by norm_num)) h

end UsageLedger.Number.Binary64
