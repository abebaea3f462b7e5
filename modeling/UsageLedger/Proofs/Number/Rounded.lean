/-
UsageLedger/Proofs/Number/Rounded.lean

Rounding to double precision is correct.  The numbers that double precision has are
`IsDouble`; a rational is rounded to the one that is nearest to it, and of two equally
near ones to the one with the even significand (`IsNearest`).

A quotient is a number of units, `unitsOf`, and a rest of half a unit at most.  Every
other number of double precision is half a unit away at least (`half_unit_le`): it is
either a whole number of units itself or lies below the binade of the quotient.  So the
units are the nearest number as long as they stay in the range, which is up to
`overflow` (`inRange_iff`); beyond it the result is infinite.
-/
import Mathlib.Data.Rat.Floor
import UsageLedger.Proofs.Number.Nearest

namespace UsageLedger.Number

variable {num den : ℕ}

/-! ### The nearest whole number -/

/-- A quotient of naturals is its whole part and a rest below one. -/
theorem div_eq_add_rest (hd : 0 < den) :
    (num : ℚ) / den = (num / den : ℕ) + ((num % den : ℕ) : ℚ) / den := by
  have hden : (den : ℚ) ≠ 0 := by exact_mod_cast hd.ne'
  rw [div_eq_iff hden, add_mul, div_mul_cancel₀ _ hden, mul_comm]
  exact_mod_cast (Nat.div_add_mod num den).symm

/-- A quotient and what it is rounded to are at most half of one apart, and if they are as far as
that, the whole number is even. -/
theorem roundQuotient_spec (hd : 0 < den) :
    |(roundQuotient num den : ℚ) - num / den| ≤ 1 / 2 ∧
      (|(roundQuotient num den : ℚ) - num / den| = 1 / 2 → roundQuotient num den % 2 = 0) := by
  have hden : (0 : ℚ) < den := by exact_mod_cast hd
  have hpos : 0 ≤ ((num % den : ℕ) : ℚ) / den := by positivity
  have hlt : ((num % den : ℕ) : ℚ) / den < 1 := by
    rw [div_lt_one hden]
    exact_mod_cast Nat.mod_lt num hd
  -- How the rest compares with half of the divisor.
  have hless : 2 * (num % den) < den ↔ ((num % den : ℕ) : ℚ) / den < 1 / 2 := by
    rw [div_lt_div_iff₀ hden two_pos, one_mul, mul_comm]
    exact_mod_cast Iff.rfl
  have hmore : den < 2 * (num % den) ↔ 1 / 2 < ((num % den : ℕ) : ℚ) / den := by
    rw [div_lt_div_iff₀ two_pos hden, one_mul, mul_comm ((num % den : ℕ) : ℚ)]
    exact_mod_cast Iff.rfl
  rw [div_eq_add_rest hd]
  generalize ((num % den : ℕ) : ℚ) / den = rest at hpos hlt hless hmore
  unfold roundQuotient
  dsimp only
  have hdown : |((num / den : ℕ) : ℚ) - ((num / den : ℕ) + rest)| = rest := by
    rw [sub_add_cancel_left, abs_neg, abs_of_nonneg hpos]
  have hup : |((num / den + 1 : ℕ) : ℚ) - ((num / den : ℕ) + rest)| = 1 - rest := by
    rw [Nat.cast_succ, add_sub_add_left_eq_sub, abs_of_nonneg (by linarith)]
  split
  · rename_i h
    rw [hdown]
    have := hless.1 h
    exact ⟨this.le, fun he => absurd he this.ne⟩
  · rename_i hn
    rw [hless] at hn
    split
    · rename_i h
      have := hmore.1 h
      rw [hup]
      exact ⟨by linarith, fun he => by linarith⟩
    · rename_i hm
      rw [hmore] at hm
      split
      · rename_i heven
        rw [hdown]
        exact ⟨by linarith, fun _ => heven⟩
      · rw [hup]
        exact ⟨by linarith, fun _ => by omega⟩

/-- Any other whole number is further off. -/
theorem half_le_abs_sub {n k : ℤ} {x : ℚ} (h : |(n : ℚ) - x| ≤ 1 / 2) (hk : k ≠ n) :
    1 / 2 ≤ |(k : ℚ) - x| := by
  have hone : (1 : ℚ) ≤ |(k : ℚ) - n| := by
    exact_mod_cast Int.one_le_abs (sub_ne_zero.2 hk)
  have htri := abs_sub_le (k : ℚ) x n
  rw [abs_sub_comm x] at htri
  linarith

/-! ### Double precision -/

/-- The numbers from zero on that double precision has. -/
def IsDouble (q : ℚ) : Prop :=
  ∃ (m : ℕ) (e : ℤ), m < 2 ^ 53 ∧ -1074 ≤ e ∧ e ≤ 971 ∧ q = m * 2 ^ e

/-- The significand, with as many digits as there may be, is even. -/
def HasEvenSignificand (q : ℚ) : Prop :=
  ∃ (m : ℕ) (e : ℤ), m % 2 = 0 ∧ m < 2 ^ 53 ∧ -1074 ≤ e ∧ e ≤ 971 ∧ q = m * 2 ^ e

/-- Of the numbers that double precision has, none is nearer; if another one is as near, the
significand is even. -/
structure IsNearest (v q : ℚ) : Prop where
  isDouble : IsDouble v
  le_abs : ∀ {w}, IsDouble w → |v - q| ≤ |w - q|
  even_of_tie : ∀ {w}, IsDouble w → w ≠ v → |w - q| = |v - q| → HasEvenSignificand v

theorem isDouble_natCast {n : ℕ} (h : n ≤ 2 ^ 53) : IsDouble n := by
  rcases h.lt_or_eq with hlt | rfl
  · exact ⟨n, 0, hlt, by norm_num, by norm_num, by simp⟩
  · exact ⟨2 ^ 52, 1, by norm_num, by norm_num, by norm_num, by norm_num⟩

/-- A number that double precision has is not changed. -/
theorem IsNearest.eq_of_isDouble {v q : ℚ} (h : IsNearest v q) (hq : IsDouble q) : v = q := by
  have hle := h.le_abs hq
  rw [sub_self, abs_zero] at hle
  exact sub_eq_zero.1 (abs_nonpos_iff.1 hle)

theorem IsDouble.nonneg {q : ℚ} (h : IsDouble q) : 0 ≤ q := by
  obtain ⟨m, e, -, -, -, rfl⟩ := h
  positivity

/-- Zero is no nearer. -/
theorem IsNearest.le_two_mul {v q : ℚ} (h : IsNearest v q) (hq : 0 ≤ q) : v ≤ 2 * q := by
  have hzero := h.le_abs (isDouble_natCast (Nat.zero_le _))
  rw [Nat.cast_zero, zero_sub, abs_neg, abs_of_nonneg hq] at hzero
  linarith [(abs_le.1 hzero).2]

/-- A number in smaller units. -/
theorem mul_zpow_add (m zeros : ℕ) (e : ℤ) :
    (m : ℚ) * 2 ^ (e + zeros) = (m * 2 ^ zeros : ℕ) * 2 ^ e := by
  rw [zpow_add₀ two_ne_zero, zpow_natCast]
  push_cast
  ring

theorem mul_zpow_lt_iff {m n : ℕ} {e : ℤ} : (m : ℚ) * 2 ^ e < n * 2 ^ e ↔ m < n := by
  rw [mul_lt_mul_iff_left₀ (by positivity), Nat.cast_lt]

/-- Between two numbers with even significands there is another one. -/
theorem exists_isDouble_between {v v' : ℚ} (h : HasEvenSignificand v) (h' : HasEvenSignificand v')
    (hlt : v < v') : ∃ w, IsDouble w ∧ v < w ∧ w < v' := by
  obtain ⟨m, e, heven, hm, hlow, hhigh, rfl⟩ := h
  obtain ⟨m', e', heven', hm', hlow', hhigh', rfl⟩ := h'
  -- In the smaller of the two units both are even, so the odd number next to one is between them.
  rcases le_total e e' with hle | hle
  · obtain ⟨zeros, rfl⟩ := Int.le.dest hle
    have heven'' : m' * 2 ^ zeros % 2 = 0 := by rw [Nat.mul_mod, heven', Nat.zero_mul, Nat.zero_mod]
    rw [mul_zpow_add] at hlt ⊢
    have hmlt := mul_zpow_lt_iff.1 hlt
    exact ⟨(m + 1 : ℕ) * 2 ^ e, ⟨m + 1, e, by omega, hlow, hhigh, rfl⟩,
      mul_zpow_lt_iff.2 (by omega), mul_zpow_lt_iff.2 (by omega)⟩
  · obtain ⟨zeros, rfl⟩ := Int.le.dest hle
    have heven'' : m * 2 ^ zeros % 2 = 0 := by rw [Nat.mul_mod, heven, Nat.zero_mul, Nat.zero_mod]
    rw [mul_zpow_add] at hlt ⊢
    have hmlt := mul_zpow_lt_iff.1 hlt
    exact ⟨(m' - 1 : ℕ) * 2 ^ e', ⟨m' - 1, e', by omega, hlow', hhigh', rfl⟩,
      mul_zpow_lt_iff.2 (by omega), mul_zpow_lt_iff.2 (by omega)⟩

/-- There is only one nearest number. -/
theorem IsNearest.unique {v v' q : ℚ} (h : IsNearest v q) (h' : IsNearest v' q) : v = v' := by
  have hsame : |v - q| = |v' - q| := le_antisymm (h.le_abs h'.isDouble) (h'.le_abs h.isDouble)
  -- Of two numbers on either side of a rational one between them is nearer.
  have hno {v v' : ℚ} (h : IsNearest v q) (h' : IsNearest v' q) (hlt : v < v')
      (hsame : |v - q| = |v' - q|) : False := by
    obtain ⟨w, hw, hvw, hwv'⟩ := exists_isDouble_between
      (h.even_of_tie h'.isDouble hlt.ne' hsame.symm) (h'.even_of_tie h.isDouble hlt.ne hsame) hlt
    have hnearer := h.le_abs hw
    have hnearer' := h'.le_abs hw
    rcases le_total w q with hwq | hqw
    · rw [abs_of_nonpos (by linarith), abs_of_nonpos (by linarith)] at hnearer
      linarith
    · rw [abs_of_nonneg (by linarith), abs_of_nonneg (by linarith)] at hnearer'
      linarith
  rcases lt_trichotomy v v' with hlt | heq | hgt
  · exact (hno h h' hlt hsame).elim
  · exact heq
  · exact (hno h' h hgt hsame.symm).elim

/-- Rounding keeps the order. -/
theorem IsNearest.mono {v v' q q' : ℚ} (h : IsNearest v q) (h' : IsNearest v' q') (hle : q ≤ q') :
    v ≤ v' := by
  rcases hle.eq_or_lt with rfl | hlt
  · exact (h.unique h').le
  · by_contra hgt
    rw [not_le] at hgt
    -- Out of order, each of the two would be on the wrong side of the middle between them.
    have hbelow := sq_le_sq.2 (h.le_abs h'.isDouble)
    have habove := sq_le_sq.2 (h'.le_abs h.isDouble)
    have hmiddle : v + v' ≤ 2 * q := by nlinarith
    have hmiddle' : 2 * q' ≤ v + v' := by nlinarith
    linarith

/-! ### The range -/

/-- The exponents are variables, which keeps the powers from being computed. -/
theorem pow_sub_pow_eq (k : ℕ) : (2 : ℚ) ^ (k + 54) - 2 ^ k = (2 ^ 53 - 1 / 2) * 2 ^ (k + 1) := by
  ring

theorem overflow_eq : (overflow : ℚ) = (2 ^ 53 - 1 / 2) * 2 ^ (971 : ℤ) := by
  rw [overflow, Int.cast_sub, Int.cast_pow, Int.cast_pow, Int.cast_ofNat]
  exact pow_sub_pow_eq 970

theorem one_lt_overflow : (1 : ℚ) < overflow := by
  rw [overflow_eq]
  exact one_lt_mul_of_lt_of_le (by norm_num) (one_le_zpow₀ one_le_two (by norm_num))

theorem overflow_pos : (0 : ℚ) < overflow := zero_lt_one.trans one_lt_overflow

theorem IsDouble.lt_overflow {q : ℚ} (h : IsDouble q) : q < overflow := by
  obtain ⟨m, e, hm, -, he, rfl⟩ := h
  have hcast : (m : ℚ) + 1 ≤ 2 ^ 53 := by exact_mod_cast hm
  rw [overflow_eq]
  calc (m : ℚ) * 2 ^ e ≤ m * 2 ^ (971 : ℤ) := by
        gcongr
        exact one_le_two
    _ < (2 ^ 53 - 1 / 2) * 2 ^ (971 : ℤ) := by
        gcongr
        linarith

namespace Binary64

theorem neg_le_unitExponent (num den : ℕ) : -1074 ≤ unitExponent num den := le_max_right _ _

/-- The number of units is the nearest whole number. -/
theorem unitsOf_spec (hd : den ≠ 0) :
    |(unitsOf num den : ℚ) - num / den / 2 ^ unitExponent num den| ≤ 1 / 2 ∧
      (|(unitsOf num den : ℚ) - num / den / 2 ^ unitExponent num den| = 1 / 2 →
        unitsOf num den % 2 = 0) := by
  rw [← scaled_div]
  exact roundQuotient_spec (Nat.mul_pos (Nat.pos_of_ne_zero hd) (Nat.two_pow_pos _))

/-! ### Units in the range -/

/-- The units of a quotient stay in the range. -/
def InRange (num den : ℕ) : Prop :=
  unitExponent num den ≤ 970 ∨ unitExponent num den = 971 ∧ unitsOf num den < 2 ^ 53

/-- The last number of units is odd, so a tie goes beyond it. -/
theorem lt_top_iff {n : ℕ} {x : ℚ} (hhalf : |(n : ℚ) - x| ≤ 1 / 2)
    (htie : |(n : ℚ) - x| = 1 / 2 → n % 2 = 0) (htop : n ≤ 2 ^ 53) :
    n < 2 ^ 53 ↔ x < 2 ^ 53 - 1 / 2 := by
  obtain ⟨hlow, hhigh⟩ := abs_le.1 hhalf
  rcases htop.lt_or_eq with hlt | rfl
  · refine iff_of_true hlt ?_
    by_contra hx
    rw [not_lt] at hx
    have hcast : (n : ℚ) + 1 ≤ 2 ^ 53 := by exact_mod_cast hlt
    have hlast : (n : ℚ) + 1 = 2 ^ 53 := by linarith
    have heven := htie (by rw [abs_eq (by norm_num)]; right; linarith)
    have hodd : n + 1 = 2 ^ 53 := by exact_mod_cast hlast
    omega
  · refine iff_of_false (lt_irrefl _) ?_
    push_cast at hhigh
    linarith

theorem inRange_iff (hn : num ≠ 0) (hd : den ≠ 0) : InRange num den ↔ (num : ℚ) / den < overflow := by
  obtain ⟨hhalf, htie⟩ := @unitsOf_spec num den hd
  have hle := unitsOf_le hn hd
  have hlarge : (2 : ℚ) ^ 53 * 2 ^ (971 : ℤ) = 2 ^ (1024 : ℤ) := by
    rw [← zpow_natCast, ← zpow_add₀ two_ne_zero]
    norm_num
  have hunit : (0 : ℚ) < 2 ^ (971 : ℤ) := by positivity
  rw [overflow_eq]
  rcases lt_trichotomy (unitExponent num den) 971 with hlt | heq | hgt
  · -- The quotient is below the last binade.
    have hup := lt_unitExponent hn hd
    have hbinade : (2 : ℚ) ^ (unitExponent num den + 53) ≤ 2 ^ (52 : ℕ) * 2 ^ (971 : ℤ) := by
      rw [← zpow_natCast, ← zpow_add₀ two_ne_zero]
      exact zpow_le_zpow_right₀ one_le_two (by push_cast; omega)
    refine iff_of_true (.inl (by omega)) ((hup.trans_le hbinade).trans ?_)
    gcongr
    norm_num
  · -- The quotient is in the last binade, whose units go up to the range.
    rw [heq] at hhalf htie
    rw [← div_lt_iff₀ hunit, ← lt_top_iff hhalf htie hle]
    exact ⟨fun h => h.elim (fun h => by omega) And.right, fun h => .inr ⟨heq, h⟩⟩
  · -- The quotient is above the last binade.
    have hdown := (unitExponent_le hn hd).resolve_left (by omega)
    have hbinade : (2 : ℚ) ^ (1024 : ℤ) ≤ 2 ^ (unitExponent num den + 52) :=
      zpow_le_zpow_right₀ one_le_two (by omega)
    refine iff_of_false (fun h => ?_) (not_lt.2 ?_)
    · rcases h with h | ⟨h, -⟩ <;> omega
    · refine le_trans ?_ (hbinade.trans hdown)
      rw [← hlarge]
      gcongr
      norm_num

/-! ### Rounded numbers are nearest -/

/-- One more than the greatest significand is the least one of the next exponent. -/
theorem exists_significand (hn : num ≠ 0) (hd : den ≠ 0) (h : InRange num den) :
    ∃ (m : ℕ) (e : ℤ), (unitsOf num den % 2 = 0 → m % 2 = 0) ∧ m < 2 ^ 53 ∧ -1074 ≤ e ∧ e ≤ 971 ∧
      (unitsOf num den : ℚ) * 2 ^ unitExponent num den = m * 2 ^ e := by
  have hlow := neg_le_unitExponent num den
  rcases (unitsOf_le hn hd).lt_or_eq with hlt | htop
  · exact ⟨_, _, id, hlt, hlow, by rcases h with h | ⟨h, -⟩ <;> omega, rfl⟩
  · refine ⟨2 ^ 52, unitExponent num den + 1, fun _ => by norm_num, by norm_num, by omega, ?_, ?_⟩
    · rcases h with h | ⟨-, h⟩ <;> omega
    · rw [htop, zpow_add₀ two_ne_zero]
      push_cast
      ring

theorem isDouble_units (hn : num ≠ 0) (hd : den ≠ 0) (h : InRange num den) :
    IsDouble (unitsOf num den * 2 ^ unitExponent num den) := by
  obtain ⟨m, e, -, hvalue⟩ := exists_significand hn hd h
  exact ⟨m, e, hvalue⟩

theorem hasEvenSignificand_units (hn : num ≠ 0) (hd : den ≠ 0) (h : InRange num den)
    (heven : unitsOf num den % 2 = 0) :
    HasEvenSignificand (unitsOf num den * 2 ^ unitExponent num den) := by
  obtain ⟨m, e, hparity, hvalue⟩ := exists_significand hn hd h
  exact ⟨m, e, hparity heven, hvalue⟩

/-- A double precision number is a whole number of units, or below the binade of the quotient. -/
theorem units_or_below (hn : num ≠ 0) (hd : den ≠ 0) {w : ℚ} (hw : IsDouble w) :
    (∃ k : ℤ, w = k * 2 ^ unitExponent num den) ∨
      w ≤ num / den - 1 / 2 * 2 ^ unitExponent num den := by
  obtain ⟨m, e, hm, hlow, -, rfl⟩ := hw
  rcases le_or_gt (unitExponent num den) e with hle | hlt
  · obtain ⟨zeros, rfl⟩ := Int.le.dest hle
    exact .inl ⟨(m * 2 ^ zeros : ℕ), by rw [mul_zpow_add, Int.cast_natCast]⟩
  · have hbinade := (unitExponent_le hn hd).resolve_left (by omega)
    have hcast : (m : ℚ) ≤ 2 ^ 53 - 1 := by
      have : (m : ℚ) + 1 ≤ 2 ^ 53 := by exact_mod_cast hm
      linarith
    have hsmaller : (2 : ℚ) ^ e ≤ 2 ^ (unitExponent num den - 1) :=
      zpow_le_zpow_right₀ one_le_two (by omega)
    have hhalf : (2 : ℚ) ^ (unitExponent num den - 1) = 1 / 2 * 2 ^ unitExponent num den := by
      rw [zpow_sub₀ two_ne_zero]
      ring
    have hpow : (2 : ℚ) ^ (unitExponent num den + 52) = 2 ^ 52 * 2 ^ unitExponent num den := by
      rw [add_comm, zpow_add₀ two_ne_zero]
      norm_num
    refine .inr ?_
    calc (m : ℚ) * 2 ^ e ≤ (2 ^ 53 - 1) * 2 ^ (unitExponent num den - 1) := by gcongr
      _ = 2 ^ 52 * 2 ^ unitExponent num den - 1 / 2 * 2 ^ unitExponent num den := by rw [hhalf]; ring
      _ ≤ num / den - 1 / 2 * 2 ^ unitExponent num den := by rw [← hpow]; gcongr

/-- Distances are whole units and a rest. -/
theorem abs_mul_unit_sub (k : ℚ) :
    |k * 2 ^ unitExponent num den - num / den| =
      |k - num / den / 2 ^ unitExponent num den| * 2 ^ unitExponent num den := by
  have hunit : (0 : ℚ) < 2 ^ unitExponent num den := by positivity
  rw [← abs_of_pos hunit, ← abs_mul, abs_of_pos hunit, sub_mul, div_mul_cancel₀ _ hunit.ne']

/-- A quotient is half of a unit away from its units at most. -/
theorem abs_units_sub_le (hd : den ≠ 0) :
    |(unitsOf num den : ℚ) * 2 ^ unitExponent num den - num / den| ≤
      1 / 2 * 2 ^ unitExponent num den := by
  rw [abs_mul_unit_sub]
  gcongr
  exact (unitsOf_spec hd).1

/-- Half of a unit is between a quotient and every double precision number but its own. -/
theorem half_unit_le (hn : num ≠ 0) (hd : den ≠ 0) {w : ℚ} (hw : IsDouble w)
    (hne : w ≠ unitsOf num den * 2 ^ unitExponent num den) :
    1 / 2 * 2 ^ unitExponent num den ≤ |w - num / den| := by
  obtain ⟨hhalf, -⟩ := @unitsOf_spec num den hd
  rcases units_or_below hn hd hw with ⟨k, rfl⟩ | hbelow
  · have hk : k ≠ (unitsOf num den : ℤ) := by
      rintro rfl
      exact hne (by push_cast; rfl)
    rw [abs_mul_unit_sub]
    gcongr
    exact half_le_abs_sub (by exact_mod_cast hhalf) hk
  · rw [abs_sub_comm]
    exact le_trans (by linarith) (le_abs_self _)

/-- Of the double precision numbers, the units of a quotient are the nearest. -/
theorem isNearest_units (hn : num ≠ 0) (hd : den ≠ 0) (h : InRange num den) :
    IsNearest (unitsOf num den * 2 ^ unitExponent num den) (num / den) := by
  obtain ⟨hhalf, htie⟩ := @unitsOf_spec num den hd
  have hunit : (0 : ℚ) < 2 ^ unitExponent num den := by positivity
  refine ⟨isDouble_units hn hd h, fun {w} hw => ?_, fun {w} hw hne heq => ?_⟩
  · by_cases hne : w = unitsOf num den * 2 ^ unitExponent num den
    · rw [hne]
    · exact (abs_units_sub_le hd).trans (half_unit_le hn hd hw hne)
  · -- As near as that, both are half of a unit away.
    have hle := half_unit_le hn hd hw hne
    rw [heq, abs_mul_unit_sub, mul_le_mul_iff_left₀ hunit] at hle
    exact hasEvenSignificand_units hn hd h (htie (le_antisymm hhalf hle))

theorem isNearest_zero {q : ℚ} (h₀ : 0 ≤ q) (h : q ≤ 2 ^ (-1075 : ℤ)) : IsNearest 0 q := by
  refine ⟨⟨0, 0, by norm_num, by norm_num, by norm_num, by simp⟩, fun {w} hw => ?_,
    fun _ _ _ => ⟨0, 0, rfl, by norm_num, by norm_num, by norm_num, by simp⟩⟩
  rw [zero_sub, abs_neg, abs_of_nonneg h₀]
  obtain ⟨m, e, -, hlow, -, rfl⟩ := hw
  rcases Nat.eq_zero_or_pos m with rfl | hm
  · simp [abs_of_nonneg h₀]
  · have hleast : (2 : ℚ) ^ (-1074 : ℤ) ≤ m * 2 ^ e := by
      calc (2 : ℚ) ^ (-1074 : ℤ) ≤ 2 ^ e := zpow_le_zpow_right₀ one_le_two hlow
        _ = 1 * 2 ^ e := (one_mul _).symm
        _ ≤ m * 2 ^ e := by gcongr; exact_mod_cast hm
    have htwice : (2 : ℚ) ^ (-1074 : ℤ) = 2 * 2 ^ (-1075 : ℤ) := by
      rw [← zpow_one_add₀ two_ne_zero]
      norm_num
    exact le_trans (by linarith) (le_abs_self _)

/-! ### Results of rounding -/

/-- A number from zero on with this value. -/
def HasValue (x : Binary64) (v : ℚ) : Prop := ∃ m e, x = finite false m e ∧ v = (m : ℚ) * 2 ^ e

theorem hasValue_zero : HasValue (zero false) 0 := ⟨0, -1074, rfl, by simp⟩

/-- In the range a quotient is rounded to the nearest number. -/
theorem exists_nearest_of_lt (hd : den ≠ 0) (h : (num : ℚ) / den < overflow) :
    ∃ v, HasValue (nearest false num den) v ∧ IsNearest v (num / den) := by
  by_cases hn : num = 0
  · subst hn
    refine ⟨0, hasValue_zero, ?_⟩
    rw [Nat.cast_zero, zero_div]
    exact isNearest_zero le_rfl (by positivity)
  · have hrange := (inRange_iff hn hd).2 h
    rcases nearest_cases false den hn with ⟨m, e, hnearest, hvalue⟩ | ⟨-, hbeyond⟩
    · exact ⟨_, ⟨m, e, hnearest, hvalue.symm⟩, isNearest_units hn hd hrange⟩
    · exfalso
      rcases hrange with hrange | ⟨hrange, hlt⟩ <;> omega

/-- Beyond the range there is no number. -/
theorem nearest_of_overflow_le (negative : Bool) (hd : den ≠ 0) (h : (overflow : ℚ) ≤ num / den) :
    nearest negative num den = infinite negative := by
  have hn : num ≠ 0 := by
    rintro rfl
    rw [Nat.cast_zero, zero_div] at h
    exact absurd overflow_pos h.not_gt
  have hrange := (inRange_iff hn hd).not.2 h.not_gt
  have htop := unitsOf_le hn hd
  rw [InRange, not_or, not_and] at hrange
  unfold nearest
  rw [if_neg hn]
  dsimp only
  rw [← unitsOf]
  by_cases hlast : unitsOf num den = 2 ^ 53
  · rw [if_pos hlast]
    dsimp only
    rw [if_pos (by omega)]
  · rw [if_neg hlast]
    dsimp only
    rw [if_pos (by omega)]

theorem HasValue.toRat? {x : Binary64} {v : ℚ} (h : HasValue x v) : x.toRat? = some v := by
  obtain ⟨m, e, rfl, rfl⟩ := h
  exact toRat?_finite false m e

theorem HasValue.truncate? {x : Binary64} {v : ℚ} (h : HasValue x v) : x.truncate? = some ⌊v⌋ := by
  obtain ⟨m, e, rfl, rfl⟩ := h
  have hvalue : (m : ℚ) * 2 ^ e = ((m * 2 ^ e.toNat : ℕ) : ℚ) / ((2 ^ (-e).toNat : ℕ) : ℚ) := by
    rw [two_zpow]
    push_cast
    ring
  rw [hvalue, Rat.floor_natCast_div_natCast]
  rfl

theorem natAbs_num_div_den {q : ℚ} (h₀ : 0 ≤ q) : (q.num.natAbs : ℚ) / q.den = q := by
  rw [Nat.cast_natAbs, abs_of_nonneg (Rat.num_nonneg.2 h₀), Rat.num_div_den]

/-- A number that is not too small is changed by a part in `2 ^ 53` at most. -/
theorem between_of_isNearest {v q : ℚ} (h : IsNearest v q) (hlow : 2 ^ (-1022 : ℤ) ≤ q)
    (hlt : q < overflow) : q * (1 - 1 / 2 ^ 53) ≤ v ∧ v ≤ q * (1 + 1 / 2 ^ 53) := by
  have h₀ : 0 < q := lt_of_lt_of_le (by positivity) hlow
  obtain ⟨num, den, hn, hd, rfl⟩ : ∃ num den : ℕ, num ≠ 0 ∧ den ≠ 0 ∧ q = num / den :=
    ⟨q.num.natAbs, q.den, by have := Rat.num_pos.2 h₀; omega, q.den_nz, (natAbs_num_div_den h₀.le).symm⟩
  have hnearer := h.le_abs (isDouble_units hn hd ((inRange_iff hn hd).2 hlt))
  clear hlt
  have hunit : (2 : ℚ) ^ 52 * 2 ^ unitExponent num den ≤ num / den := by
    rcases unitExponent_le hn hd with hleast | hbinade
    · refine le_trans (le_of_eq ?_) hlow
      rw [hleast, ← zpow_natCast, ← zpow_add₀ two_ne_zero]
      norm_num
    · rwa [add_comm, zpow_add₀ two_ne_zero] at hbinade
  have hle : |v - num / den| ≤ num / den / 2 ^ 53 := by
    calc |v - num / den| ≤ |(unitsOf num den : ℚ) * 2 ^ unitExponent num den - num / den| := hnearer
      _ ≤ 1 / 2 * 2 ^ unitExponent num den := abs_units_sub_le hd
      _ = 2 ^ 52 * 2 ^ unitExponent num den / 2 ^ 53 := by ring
      _ ≤ num / den / 2 ^ 53 := by gcongr
  obtain ⟨hdown, hup⟩ := abs_le.1 hle
  constructor
  · linarith
  · linarith

variable {x y : Binary64} {p q : ℚ}

/-- A product is the exact one, rounded once. -/
theorem HasValue.mul_eq (hx : HasValue x p) (hy : HasValue y q) : x.mul y = ofRat false (p * q) := by
  have hp := hx.toRat?
  have hq := hy.toRat?
  obtain ⟨m, e, rfl, -⟩ := hx
  obtain ⟨m', e', rfl, -⟩ := hy
  unfold mul
  dsimp only
  rw [hp, hq]
  rfl

/-- A product with an infinite number is infinite. -/
theorem HasValue.infinite_mul (hy : HasValue y q) (hq : q ≠ 0) :
    (infinite false).mul y = infinite false := by
  obtain ⟨m, e, rfl, rfl⟩ := hy
  have hm : m ≠ 0 := by
    rintro rfl
    simp at hq
  have hzero : (finite false m e).isZero = false := beq_false_of_ne hm
  unfold mul
  dsimp only
  rw [hzero]
  rfl

theorem ofRat_of_nonneg (h₀ : 0 ≤ q) : ofRat false q = nearest false q.num.natAbs q.den := by
  have hnum : ¬ q.num < 0 := not_lt.2 (Rat.num_nonneg.2 h₀)
  unfold ofRat
  rw [decide_eq_false hnum, ite_self]

theorem exists_ofRat_of_lt (h₀ : 0 ≤ q) (h : q < overflow) :
    ∃ v, HasValue (ofRat false q) v ∧ IsNearest v q := by
  have hvalue := natAbs_num_div_den h₀
  obtain ⟨v, hv, hnearest⟩ := exists_nearest_of_lt q.den_nz (hvalue.symm ▸ h)
  rw [hvalue] at hnearest
  exact ⟨v, ofRat_of_nonneg h₀ ▸ hv, hnearest⟩

theorem ofRat_of_overflow_le (h : (overflow : ℚ) ≤ q) : ofRat false q = infinite false := by
  have h₀ : 0 ≤ q := overflow_pos.le.trans h
  rw [ofRat_of_nonneg h₀]
  refine nearest_of_overflow_le false q.den_nz ?_
  rw [natAbs_num_div_den h₀]
  exact h

end Binary64

end UsageLedger.Number
