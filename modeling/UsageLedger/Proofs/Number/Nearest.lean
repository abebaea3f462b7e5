/-
UsageLedger/Proofs/Number/Nearest.lean

Rounding to double precision against exact rationals.  The unit in which a quotient is
rounded is fixed by the binade of the quotient (`lt_unitExponent`, `unitExponent_le`),
and the result is a whole number of such units (`nearest_cases`).

So a rounded number is above a whole number exactly when the exact one is above it by
more than half of the unit there (`above_ofRat`).  Whole numbers below `2 ^ 53` and the
whole parts of double precision numbers are not rounded at all (`isExact_of_lt`,
`isExact_of_truncate?`).
-/
import Mathlib.Data.Rat.Lemmas
import Mathlib.Algebra.Order.Field.Power
import Mathlib.Tactic.FieldSimp
import Mathlib.Tactic.GCongr
import Mathlib.Tactic.NormNum
import Mathlib.Tactic.Positivity
import Mathlib.Tactic.Ring
import UsageLedger.Proofs.Number.Range
import UsageLedger.Number.Quantity

namespace UsageLedger.Number

/-! ### Quotients -/

/-- A tie goes to an even number, so nothing up to half above it is rounded up. -/
theorem roundQuotient_le_iff {num den n : ℕ} (hd : 0 < den) (hn : n % 2 = 0) :
    roundQuotient num den ≤ n ↔ 2 * num ≤ (2 * n + 1) * den := by
  have hdiv : den * (num / den) + num % den = num := Nat.div_add_mod num den
  have hrest : num % den < den := Nat.mod_lt num hd
  rcases lt_trichotomy (num / den) n with hlt | rfl | hgt
  · have hmul : (num / den + 1) * den ≤ n * den := Nat.mul_le_mul_right den hlt
    have hle := roundQuotient_le num den
    rw [Nat.succ_mul, Nat.mul_comm (num / den)] at hmul
    refine ⟨fun _ => ?_, fun _ => by omega⟩
    rw [Nat.add_mul, Nat.mul_assoc]
    omega
  · unfold roundQuotient
    rw [Nat.add_mul, Nat.mul_assoc, Nat.mul_comm (num / den), Nat.one_mul]
    dsimp only
    rw [if_pos hn]
    split
    · omega
    · split <;> omega
  · have hmul : (n + 1) * den ≤ num / den * den := Nat.mul_le_mul_right den hgt
    have hle := le_roundQuotient num den
    rw [Nat.succ_mul, Nat.mul_comm (num / den)] at hmul
    refine ⟨fun _ => by omega, fun h => ?_⟩
    rw [Nat.add_mul, Nat.mul_assoc] at h
    omega

namespace Binary64

/-! ### Powers of two -/

theorem two_zpow (e : ℤ) : (2 : ℚ) ^ e = 2 ^ e.toNat / 2 ^ (-e).toNat := by
  rcases le_total 0 e with h | h
  · have hneg : (-e).toNat = 0 := by omega
    rw [hneg, pow_zero, div_one, ← zpow_natCast, Int.toNat_of_nonneg h]
  · have hpos : e.toNat = 0 := by omega
    rw [hpos, pow_zero, one_div, ← zpow_natCast, Int.toNat_of_nonneg (by omega), zpow_neg, inv_inv]

/-- A quotient in units of a power of two. -/
theorem scaled_div (num den : ℕ) (e : ℤ) :
    ((num * 2 ^ (-e).toNat : ℕ) : ℚ) / ((den * 2 ^ e.toNat : ℕ) : ℚ) = num / den / 2 ^ e := by
  rw [two_zpow]
  push_cast
  field_simp

/-- A power of two reaches up to a quotient. -/
theorem two_zpow_le_div {num den : ℕ} (hd : 0 < den) (e : ℤ) :
    (2 : ℚ) ^ e ≤ num / den ↔ den * 2 ^ e.toNat ≤ num * 2 ^ (-e).toNat := by
  have hden : (0 : ℚ) < den := by exact_mod_cast hd
  rw [two_zpow, div_le_div_iff₀ (by positivity) hden, mul_comm ((2 : ℚ) ^ e.toNat)]
  exact_mod_cast Iff.rfl

/-! ### The unit of a quotient -/

variable {num den : ℕ}

/-- A quotient lies between the powers of two that the lengths of its parts give. -/
theorem div_lt_two_zpow (hn : num ≠ 0) (hd : den ≠ 0) :
    (num : ℚ) / den < 2 ^ ((num.log2 : ℤ) - den.log2 + 1) ∧
      (2 : ℚ) ^ ((num.log2 : ℤ) - den.log2 - 1) < num / den := by
  have hden : (0 : ℚ) < den := by exact_mod_cast Nat.pos_of_ne_zero hd
  have hnum : (num : ℚ) < 2 ^ ((num.log2 : ℤ) + 1) := by
    exact_mod_cast Nat.lt_log2_self
  have hnum' : (2 : ℚ) ^ (num.log2 : ℤ) ≤ num := by exact_mod_cast Nat.log2_self_le hn
  have hden' : (den : ℚ) < 2 ^ ((den.log2 : ℤ) + 1) := by exact_mod_cast Nat.lt_log2_self
  have hden'' : (2 : ℚ) ^ (den.log2 : ℤ) ≤ den := by exact_mod_cast Nat.log2_self_le hd
  constructor
  · rw [div_lt_iff₀ hden]
    calc (num : ℚ) < 2 ^ ((num.log2 : ℤ) + 1) := hnum
      _ = 2 ^ ((num.log2 : ℤ) - den.log2 + 1) * 2 ^ (den.log2 : ℤ) := by
          rw [← zpow_add₀ two_ne_zero]
          congr 1
          omega
      _ ≤ 2 ^ ((num.log2 : ℤ) - den.log2 + 1) * den := by gcongr
  · rw [lt_div_iff₀ hden]
    calc (2 : ℚ) ^ ((num.log2 : ℤ) - den.log2 - 1) * den
        < 2 ^ ((num.log2 : ℤ) - den.log2 - 1) * 2 ^ ((den.log2 : ℤ) + 1) := by gcongr
      _ = 2 ^ (num.log2 : ℤ) := by
          rw [← zpow_add₀ two_ne_zero]
          congr 1
          omega
      _ ≤ num := hnum'

/-- A quotient is less than `2 ^ 53` units. -/
theorem lt_unitExponent (hn : num ≠ 0) (hd : den ≠ 0) :
    (num : ℚ) / den < 2 ^ (unitExponent num den + 53) := by
  obtain ⟨hlt, -⟩ := div_lt_two_zpow hn hd
  unfold unitExponent
  dsimp only
  split
  · refine hlt.trans_le (zpow_le_zpow_right₀ one_le_two ?_)
    omega
  · rename_i h
    rw [← two_zpow_le_div (Nat.pos_of_ne_zero hd), not_le] at h
    refine h.trans_le (zpow_le_zpow_right₀ one_le_two ?_)
    omega

/-- A quotient is at least `2 ^ 52` units, unless the unit is the least one. -/
theorem unitExponent_le (hn : num ≠ 0) (hd : den ≠ 0) :
    unitExponent num den = -1074 ∨ (2 : ℚ) ^ (unitExponent num den + 52) ≤ num / den := by
  obtain ⟨-, hgt⟩ := div_lt_two_zpow hn hd
  unfold unitExponent
  dsimp only
  split
  · rename_i h
    rw [← two_zpow_le_div (Nat.pos_of_ne_zero hd)] at h
    rcases le_total ((num.log2 : ℤ) - den.log2 - 52) (-1074) with hle | hle
    · exact .inl (max_eq_right hle)
    · refine .inr (le_trans (zpow_le_zpow_right₀ one_le_two ?_) h)
      omega
  · rcases le_total ((num.log2 : ℤ) - den.log2 - 1 - 52) (-1074) with hle | hle
    · exact .inl (max_eq_right hle)
    · refine .inr (le_trans (zpow_le_zpow_right₀ one_le_two ?_) hgt.le)
      omega

/-! ### Rounded numbers -/

theorem toRat?_finite (negative : Bool) (m : ℕ) (e : ℤ) :
    (finite negative m e).toRat? = some (if negative then -((m : ℚ) * 2 ^ e) else (m : ℚ) * 2 ^ e) := by
  have hvalue : mkRat (m * 2 ^ e.toNat : ℕ) (2 ^ (-e).toNat) = (m : ℚ) * 2 ^ e := by
    rw [Rat.mkRat_eq_div, two_zpow]
    push_cast
    ring
  unfold toRat?
  dsimp only
  rw [hvalue]

/-- The number of units that a quotient is rounded to. -/
def unitsOf (num den : ℕ) : ℕ :=
  roundQuotient (num * 2 ^ (-unitExponent num den).toNat) (den * 2 ^ (unitExponent num den).toNat)

/-- A rounded quotient is a whole number of units, or beyond the range. -/
theorem nearest_cases (negative : Bool) (den : ℕ) (hn : num ≠ 0) :
    (∃ m e, nearest negative num den = finite negative m e ∧
        (m : ℚ) * 2 ^ e = unitsOf num den * 2 ^ unitExponent num den) ∨
      nearest negative num den = infinite negative ∧
        (unitsOf num den = 2 ^ 53 ∧ 970 < unitExponent num den ∨ 971 < unitExponent num den) := by
  unfold nearest
  rw [if_neg hn]
  dsimp only
  rw [← unitsOf]
  by_cases htop : unitsOf num den = 2 ^ 53
  · -- The next binade is reached: half as many units of twice the size.
    rw [if_pos htop]
    dsimp only
    split
    · exact .inr ⟨rfl, .inl ⟨htop, by omega⟩⟩
    · refine .inl ⟨_, _, rfl, ?_⟩
      rw [htop, zpow_add₀ two_ne_zero]
      push_cast
      ring
  · rw [if_neg htop]
    dsimp only
    split
    · exact .inr ⟨rfl, .inr (by omega)⟩
    · exact .inl ⟨_, _, rfl, rfl⟩

theorem unitsOf_le_iff (hd : den ≠ 0) {n : ℕ} (hn : n % 2 = 0) :
    unitsOf num den ≤ n ↔ (num : ℚ) / den ≤ (n + 1 / 2) * 2 ^ unitExponent num den := by
  have hpos : 0 < den * 2 ^ (unitExponent num den).toNat :=
    Nat.mul_pos (Nat.pos_of_ne_zero hd) (Nat.two_pow_pos _)
  have hpos' : (0 : ℚ) < (den * 2 ^ (unitExponent num den).toNat : ℕ) := by exact_mod_cast hpos
  rw [unitsOf, roundQuotient_le_iff hpos hn, ← div_le_iff₀ (by positivity), ← scaled_div,
    div_le_iff₀ hpos']
  constructor
  · intro h
    have h : (2 : ℚ) * (num * 2 ^ (-unitExponent num den).toNat : ℕ) ≤
        (2 * n + 1) * (den * 2 ^ (unitExponent num den).toNat : ℕ) := by exact_mod_cast h
    linarith
  · intro h
    have h : (2 : ℚ) * (num * 2 ^ (-unitExponent num den).toNat : ℕ) ≤
        (2 * n + 1) * (den * 2 ^ (unitExponent num den).toNat : ℕ) := by linarith
    exact_mod_cast h

theorem unitsOf_le (hn : num ≠ 0) (hd : den ≠ 0) : unitsOf num den ≤ 2 ^ 53 := by
  rw [unitsOf_le_iff hd (by norm_num)]
  have hlt := lt_unitExponent hn hd
  have hunits : (0 : ℚ) < 2 ^ unitExponent num den := by positivity
  rw [zpow_add₀ two_ne_zero, mul_comm] at hlt
  push_cast
  norm_num at hlt ⊢
  linarith

theorem le_unitsOf (hn : num ≠ 0) (hd : den ≠ 0) :
    unitExponent num den = -1074 ∨ 2 ^ 52 ≤ unitsOf num den := by
  refine (unitExponent_le hn hd).imp_right fun h => ?_
  have hpos : 0 < den * 2 ^ (unitExponent num den).toNat :=
    Nat.mul_pos (Nat.pos_of_ne_zero hd) (Nat.two_pow_pos _)
  have hpos' : (0 : ℚ) < (den * 2 ^ (unitExponent num den).toNat : ℕ) := by exact_mod_cast hpos
  refine le_trans ?_ (le_roundQuotient _ _)
  rw [Nat.le_div_iff_mul_le hpos]
  have h : (2 : ℚ) ^ 52 ≤ num / den / 2 ^ unitExponent num den := by
    rw [le_div_iff₀ (by positivity), ← zpow_natCast, ← zpow_add₀ two_ne_zero, add_comm]
    exact h
  rw [← scaled_div, le_div_iff₀ hpos'] at h
  exact_mod_cast h

/-! ### Rounded numbers beside whole ones -/

theorem above_finite (negative : Bool) (m : ℕ) (e n : ℤ) :
    (Quantity.real (finite negative m e)).above (.whole n) =
      decide ((n : ℚ) < if negative then -((m : ℚ) * 2 ^ e) else (m : ℚ) * 2 ^ e) := by
  unfold Quantity.above Quantity.compare?
  dsimp only
  rw [toRat?_finite, Option.map_some]
  generalize (if negative then -((m : ℚ) * 2 ^ e) else (m : ℚ) * 2 ^ e) = x
  unfold Quantity.compare?.compareRat
  rcases lt_trichotomy x n with h | h | h
  · simp [h, h.le]
  · simp [h]
  · simp [h, h.not_gt]

variable {K k : ℕ}

/-- The case in which the quotient is rounded in the unit of the whole number. -/
theorem lt_units_iff (hd : den ≠ 0) (hk : k < 52) (he : unitExponent num den = (k : ℤ) - 52) :
    (K : ℚ) < unitsOf num den * 2 ^ unitExponent num den ↔ (K : ℚ) + 2 ^ ((k : ℤ) - 53) < num / den := by
  -- The whole number has an even number of these units.
  have heven : K * 2 ^ (52 - k) % 2 = 0 := by
    obtain ⟨j, hj⟩ : ∃ j, 52 - k = j + 1 := ⟨51 - k, by omega⟩
    rw [hj, pow_succ, ← mul_assoc, Nat.mul_mod_left]
  have hunit : (2 : ℚ) ^ (52 - k) * 2 ^ ((k : ℤ) - 52) = 1 := by
    rw [← zpow_natCast, ← zpow_add₀ two_ne_zero, Nat.cast_sub hk.le]
    norm_num
  have hhalf : (2 : ℚ) ^ ((k : ℤ) - 53) = 1 / 2 * 2 ^ ((k : ℤ) - 52) := by
    rw [show (k : ℤ) - 53 = -1 + (k - 52) by ring, zpow_add₀ two_ne_zero]
    norm_num
  have hK : (K : ℚ) = (K * 2 ^ (52 - k) : ℕ) * 2 ^ ((k : ℤ) - 52) := by
    push_cast
    rw [mul_assoc, hunit, mul_one]
  have hmore := @unitsOf_le_iff num den hd _ heven
  rw [he, add_mul, ← hK, ← hhalf] at hmore
  rw [← not_iff_not, not_lt, not_lt, ← hmore, he]
  conv_lhs => rw [hK]
  rw [mul_le_mul_iff_left₀ (by positivity)]
  exact Nat.cast_le

/-- A rounded quotient is above a whole number if the quotient is above it by more than half of the
unit there. -/
theorem above_nearest (hn : num ≠ 0) (hd : den ≠ 0) (hlow : 2 ^ k ≤ K) (hhigh : K < 2 ^ (k + 1))
    (hk : k < 52) :
    (Quantity.real (nearest false num den)).above (.whole K) = true ↔
      (K : ℚ) + 2 ^ ((k : ℤ) - 53) < num / den := by
  have hlow : (2 : ℚ) ^ (k : ℤ) ≤ K := by exact_mod_cast hlow
  have hhigh : (K : ℚ) + 1 ≤ 2 ^ ((k : ℤ) + 1) := by exact_mod_cast hhigh
  have hhalf : (2 : ℚ) ^ ((k : ℤ) - 53) < 1 := zpow_lt_one_of_neg₀ one_lt_two (by omega)
  have hpos : (0 : ℚ) < 2 ^ ((k : ℤ) - 53) := by positivity
  -- In a larger unit both are above.
  have habove : (k : ℤ) - 52 < unitExponent num den → (2 : ℚ) ^ ((k : ℤ) + 1) ≤ num / den := by
    intro he
    rcases unitExponent_le hn hd with h | h
    · omega
    · exact (zpow_le_zpow_right₀ one_le_two (by omega)).trans h
  rcases nearest_cases false den hn with ⟨m, e, hnearest, hvalue⟩ | ⟨hnearest, hrange⟩
  · rw [hnearest, above_finite, decide_eq_true_iff, if_neg Bool.false_ne_true, hvalue, Int.cast_natCast]
    rcases lt_trichotomy (unitExponent num den) (k - 52) with hlt | heq | hgt
    · -- In a smaller unit neither is.
      have hbinade : (2 : ℚ) ^ (unitExponent num den + 53) ≤ 2 ^ (k : ℤ) :=
        zpow_le_zpow_right₀ one_le_two (by omega)
      have hquotient := lt_unitExponent hn hd
      have hunits : (unitsOf num den : ℚ) * 2 ^ unitExponent num den ≤ 2 ^ (unitExponent num den + 53) := by
        rw [add_comm, zpow_add₀ two_ne_zero]
        have hle : (unitsOf num den : ℚ) ≤ 2 ^ (53 : ℤ) := by exact_mod_cast unitsOf_le hn hd
        gcongr
      exact ⟨fun h => by linarith, fun h => by linarith⟩
    · exact lt_units_iff hd hk heq
    · have hquotient := habove hgt
      have hunits : (2 : ℚ) ^ ((k : ℤ) + 1) ≤ unitsOf num den * 2 ^ unitExponent num den := by
        rcases le_unitsOf hn hd with h | h
        · omega
        · calc (2 : ℚ) ^ ((k : ℤ) + 1) ≤ 2 ^ (52 + unitExponent num den) :=
              zpow_le_zpow_right₀ one_le_two (by omega)
            _ = 2 ^ (52 : ℤ) * 2 ^ unitExponent num den := zpow_add₀ two_ne_zero _ _
            _ ≤ unitsOf num den * 2 ^ unitExponent num den := by
              have hle : (2 : ℚ) ^ (52 : ℤ) ≤ unitsOf num den := by exact_mod_cast h
              gcongr
      exact ⟨fun _ => by linarith, fun _ => by linarith⟩
  · have hquotient := habove (by omega)
    rw [hnearest]
    exact ⟨fun _ => by linarith, fun _ => rfl⟩

/-- A rounded rational is above a positive whole number if the rational is above it by more than half
of the unit there. -/
theorem above_ofRat (zeroNegative : Bool) (q : ℚ) (hlow : 2 ^ k ≤ K) (hhigh : K < 2 ^ (k + 1))
    (hk : k < 52) :
    (Quantity.real (ofRat zeroNegative q)).above (.whole K) = decide ((K : ℚ) + 2 ^ ((k : ℤ) - 53) < q) := by
  have hbound : (0 : ℚ) < K + 2 ^ ((k : ℤ) - 53) := by positivity
  rcases lt_trichotomy q.num 0 with hneg | hzero | hpos
  · -- A negative number stays negative.
    have hq : q ≤ 0 := (Rat.num_neg.1 hneg).le
    have hn : q.num.natAbs ≠ 0 := by omega
    rw [ofRat, if_neg hneg.ne, decide_eq_true hneg, decide_eq_false (by linarith)]
    rcases nearest_cases true q.den hn with ⟨m, e, hnearest, -⟩ | ⟨hnearest, -⟩
    · rw [hnearest, above_finite, if_pos rfl, decide_eq_false]
      have hvalue : (0 : ℚ) ≤ m * 2 ^ e := by positivity
      have hK : (0 : ℚ) ≤ (K : ℤ) := by positivity
      linarith
    · rw [hnearest]
      rfl
  · rw [Rat.num_eq_zero.1 hzero, decide_eq_false hbound.le.not_gt]
    show (Quantity.real (finite zeroNegative 0 (-1074))).above (.whole K) = false
    rw [above_finite, decide_eq_false]
    simp
  · have hn : q.num.natAbs ≠ 0 := by omega
    have hquotient : (q.num.natAbs : ℚ) / q.den = q := by
      rw [Nat.cast_natAbs, abs_of_pos hpos, Rat.num_div_den]
    rw [ofRat, if_neg hpos.ne', decide_eq_false hpos.not_gt, Bool.eq_iff_iff,
      above_nearest hn q.den_nz hlow hhigh hk, hquotient, decide_eq_true_iff]

/-- A difference is the exact one, rounded once. -/
theorem exists_sub_eq_ofRat {x y : Binary64} {p q : ℚ} (hx : x.toRat? = some p) (hy : y.toRat? = some q) :
    ∃ zeroNegative, x.sub y = ofRat zeroNegative (p - q) := by
  cases x with
  | finite negative m e =>
    cases y with
    | finite negative' m' e' =>
      have hneg : (finite (!negative') m' e').toRat? = some (-q) := by
        rw [toRat?_finite] at hy ⊢
        cases hy
        cases negative' <;> simp
      refine ⟨negative && !negative', ?_⟩
      unfold sub neg add
      dsimp only
      rw [hx, hneg, sub_eq_add_neg]
      rfl
    | infinite b => cases hy
    | nan => cases hy
  | infinite b => cases hx
  | nan => cases hx

/-! ### Whole numbers that are not rounded -/

/-- A whole number is a double precision number. -/
def IsExact (n : ℤ) : Prop := ∃ x, ofInt? n = some x ∧ x.toRat? = some (n : ℚ)

theorem isExact_zero : IsExact 0 := ⟨.zero false, rfl, by rw [zero, toRat?_finite]; simp⟩

/-- Whole numbers of `53` binary digits and some zeros have no rest beside their units. -/
theorem unitsOf_mul {m e : ℕ} (hm : m < 2 ^ 53) (hn : m * 2 ^ e ≠ 0) :
    (unitsOf (m * 2 ^ e) 1 : ℚ) * 2 ^ unitExponent (m * 2 ^ e) 1 = (m * 2 ^ e : ℕ) := by
  have hlog : (m * 2 ^ e).log2 < 53 + e := by
    rw [Nat.log2_lt hn, pow_add]
    exact Nat.mul_lt_mul_of_pos_right hm (Nat.two_pow_pos e)
  rw [unitsOf, unitExponent_one hn, Nat.one_mul]
  generalize (m * 2 ^ e).log2 = log at hlog ⊢
  rcases le_total log 52 with hle | hle
  · -- A unit is a fraction of one.
    have hdown : ((log : ℤ) - 52).toNat = 0 := by omega
    have hup : (-((log : ℤ) - 52)).toNat = 52 - log := by omega
    have hexact := roundQuotient_mul_left (m * 2 ^ e * 2 ^ (52 - log)) Nat.one_pos
    rw [Nat.mul_one] at hexact
    rw [hdown, hup, Nat.pow_zero, hexact, Nat.cast_mul, Nat.cast_pow, Nat.cast_ofNat, mul_assoc,
      ← zpow_natCast, ← zpow_add₀ two_ne_zero, Nat.cast_sub hle]
    simp
  · -- The units are what is left of the zeros.
    obtain ⟨unit, rfl⟩ := Nat.exists_eq_add_of_le hle
    obtain ⟨zeros, rfl⟩ := Nat.exists_eq_add_of_le (show unit ≤ e by omega)
    have hdown : (((52 + unit : ℕ) : ℤ) - 52).toNat = unit := by omega
    have hup : (-(((52 + unit : ℕ) : ℤ) - 52)).toNat = 0 := by omega
    have hunit : ((52 + unit : ℕ) : ℤ) - 52 = unit := by omega
    rw [hdown, hup, hunit, Nat.pow_zero, Nat.mul_one, pow_add, mul_comm (2 ^ unit), ← mul_assoc,
      roundQuotient_mul_left _ (Nat.two_pow_pos unit), zpow_natCast]
    push_cast
    ring

theorem isExact_of_natAbs_eq {n : ℤ} {m e : ℕ} (hm : m < 2 ^ 53) (he : e ≤ 971)
    (hn : n.natAbs = m * 2 ^ e) : IsExact n := by
  obtain ⟨k, hk⟩ : ∃ k, k = 971 := ⟨_, rfl⟩
  by_cases hzero : n.natAbs = 0
  · rw [Int.natAbs_eq_zero.1 hzero]
    exact isExact_zero
  have hunits := unitsOf_mul hm (hn ▸ hzero)
  rw [← hn] at hunits
  have hlog : n.natAbs.log2 < 53 + e := by
    rw [Nat.log2_lt hzero, hn, pow_add]
    exact Nat.mul_lt_mul_of_pos_right hm (Nat.two_pow_pos e)
  have hunit := unitExponent_one hzero
  rcases nearest_cases (decide (n < 0)) 1 hzero with ⟨m', e', hnearest, hvalue⟩ | ⟨-, hrange⟩
  · refine ⟨finite (decide (n < 0)) m' e', by rw [ofInt?, hnearest], ?_⟩
    rw [toRat?_finite, hvalue, hunits, Nat.cast_natAbs]
    congr 1
    split
    · rename_i hneg
      rw [abs_of_neg (of_decide_eq_true hneg)]
      simp
    · rename_i hneg
      rw [abs_of_nonneg (by simpa using hneg)]
  · -- Rounding up to the next binade would take a number beyond the range.
    rcases hrange with ⟨htop, hrange⟩ | hrange
    · have hlast : unitExponent n.natAbs 1 = k := by omega
      rw [htop, hlast, zpow_natCast] at hunits
      have hvast : 2 ^ 53 * 2 ^ k = n.natAbs := by exact_mod_cast hunits
      have hsmall : m * 2 ^ e < 2 ^ 53 * 2 ^ k :=
        Nat.mul_lt_mul_of_lt_of_le hm (Nat.pow_le_pow_right Nat.two_pos (hk ▸ he)) (Nat.two_pow_pos k)
      omega
    · omega

/-- Whole numbers below `2 ^ 53` are exact. -/
theorem isExact_of_lt {n : ℤ} (h : n.natAbs < 2 ^ 53) : IsExact n :=
  isExact_of_natAbs_eq h (Nat.zero_le 971) (by rw [Nat.pow_zero, Nat.mul_one])

/-- The whole part of a double precision number is exact. -/
theorem isExact_of_truncate? {negative : Bool} {m : ℕ} {e n : ℤ} (hm : m < 2 ^ 53) (he : e ≤ 971)
    (h : (finite negative m e).truncate? = some n) : IsExact n := by
  have hn : n.natAbs = m * 2 ^ e.toNat / 2 ^ (-e).toNat := by
    cases negative with
    | false =>
      cases h
      exact Int.natAbs_natCast _
    | true =>
      cases h
      exact (Int.natAbs_neg _).trans (Int.natAbs_natCast _)
  rcases le_total 0 e with hpos | hneg
  · have hzero : (-e).toNat = 0 := by omega
    rw [hzero, Nat.pow_zero, Nat.div_one] at hn
    exact isExact_of_natAbs_eq hm (by omega) hn
  · have hzero : e.toNat = 0 := by omega
    rw [hzero, Nat.pow_zero, Nat.mul_one] at hn
    exact isExact_of_lt (hn ▸ (Nat.div_le_self _ _).trans_lt hm)

end Binary64

end UsageLedger.Number
