/-
UsageLedger/Proofs/Number/Finite.lean

Operations that stay in the range of double precision.  What is rounded from a magnitude
in the range is finite, and at most twice as large (`exists_ofRat`); so differences of
numbers in the range are, and remainders and quotients by a whole number.  The whole part
of such a quotient always exists (`IsFinite.exists_truncate?_floorDiv`).

What a clock shows is a time since its beginning, in this range (`Quantity.IsTime`).
The time between two readings is in the range too, forward or backward.
-/
import UsageLedger.Proofs.Number.Whole

namespace UsageLedger.Number

namespace Binary64

variable {x y : Binary64} {p q : ℚ} {d : ℕ}

/-- A finite number with this value, of a magnitude in the range. -/
structure IsFinite (x : Binary64) (q : ℚ) : Prop where
  toRat? : x.toRat? = some q
  inRange : |q| < overflow

theorem IsFinite.exists_truncate? (h : IsFinite x q) : ∃ n, x.truncate? = some n := by
  cases x with
  | finite negative m e => exact ⟨_, rfl⟩
  | infinite negative => cases h.toRat?
  | nan => cases h.toRat?

/-! ### Rounding -/

theorem nearest_true (num den : ℕ) : nearest true num den = (nearest false num den).neg := by
  unfold nearest
  split
  · rfl
  · dsimp only
    split
    · dsimp only
      split <;> rfl
    · dsimp only
      split <;> rfl

theorem toRat?_neg (h : x.toRat? = some q) : x.neg.toRat? = some (-q) := by
  cases x with
  | finite negative m e =>
    rw [toRat?_finite] at h
    cases h
    show (finite (!negative) m e).toRat? = _
    rw [toRat?_finite]
    cases negative <;> simp
  | infinite negative => cases h
  | nan => cases h

theorem exists_toRat?_nearest (h₀ : 0 ≤ q) (h : q < overflow) :
    ∃ v, (nearest false q.num.natAbs q.den).toRat? = some v ∧ 0 ≤ v ∧ v < overflow ∧ v ≤ 2 * q := by
  obtain ⟨v, hv, hnearest⟩ := exists_ofRat_of_lt h₀ h
  rw [ofRat_of_nonneg h₀] at hv
  exact ⟨v, hv.toRat?, hnearest.isDouble.nonneg, hnearest.isDouble.lt_overflow, hnearest.le_two_mul h₀⟩

/-- **A magnitude in the range is rounded to a finite number**, of the same sign and at most twice as
large. -/
theorem exists_ofRat (zeroNegative : Bool) (h : |q| < overflow) :
    ∃ v, IsFinite (ofRat zeroNegative q) v ∧ |v| ≤ 2 * |q| ∧ (0 ≤ q → 0 ≤ v) := by
  rcases lt_trichotomy q 0 with hneg | rfl | hpos
  · rw [abs_of_neg hneg] at h ⊢
    obtain ⟨v, hv, h₀, hlt, hle⟩ := exists_toRat?_nearest (neg_pos.2 hneg).le h
    rw [Rat.num_neg_eq_neg_num, Int.natAbs_neg, Rat.den_neg_eq_den] at hv
    have hnum : q.num < 0 := Rat.num_neg.2 hneg
    refine ⟨-v, ⟨?_, by rwa [abs_neg, abs_of_nonneg h₀]⟩, by rwa [abs_neg, abs_of_nonneg h₀],
      fun h => absurd h hneg.not_ge⟩
    rw [ofRat, if_neg hnum.ne, decide_eq_true hnum, nearest_true]
    exact toRat?_neg hv
  · -- Zero has either sign, and the same value.
    refine ⟨0, ⟨?_, by rw [abs_zero]; exact overflow_pos⟩, by simp, fun _ => le_rfl⟩
    show (finite zeroNegative 0 (-1074)).toRat? = some 0
    rw [toRat?_finite]
    cases zeroNegative <;> simp
  · rw [abs_of_pos hpos] at h ⊢
    obtain ⟨v, hv, h₀, hlt, hle⟩ := exists_toRat?_nearest hpos.le h
    have hnum : 0 < q.num := Rat.num_pos.2 hpos
    refine ⟨v, ⟨?_, by rwa [abs_of_nonneg h₀]⟩, by rwa [abs_of_nonneg h₀], fun _ => h₀⟩
    rw [ofRat, if_neg hnum.ne', decide_eq_false hnum.not_gt]
    exact hv

/-! ### Division with remainder -/

theorem IsFinite.exists_sub (hx : IsFinite x p) (hy : IsFinite y q) (h : |p - q| < overflow) :
    ∃ v, IsFinite (x.sub y) v := by
  obtain ⟨zeroNegative, hsub⟩ := exists_sub_eq_ofRat hx.toRat? hy.toRat?
  obtain ⟨v, hv, -⟩ := exists_ofRat zeroNegative h
  exact ⟨v, hsub ▸ hv⟩

/-- A remainder is not negative and, rounded, less than two divisors. -/
theorem IsFinite.exists_modulo (hx : IsFinite x p) (hd : 0 < d) (hle : d ≤ 2 ^ 53) :
    ∃ v, IsFinite (x.modulo d) v ∧ 0 ≤ v ∧ v ≤ 2 * d := by
  have hpos : (0 : ℚ) < d := by exact_mod_cast hd
  have hsplit : p = d * (p / d) := by field_simp
  have hfloor : ((p / d).floor : ℚ) ≤ p / d := Int.floor_le (p / d)
  have hfloor' : p / d < (p / d).floor + 1 := Int.lt_floor_add_one (p / d)
  have hlow : 0 ≤ p - d * ((p / d).floor : ℚ) := by
    have hmul := mul_le_mul_of_nonneg_left hfloor hpos.le
    linarith
  have hhigh : p - d * ((p / d).floor : ℚ) ≤ d := by
    have hmul := mul_lt_mul_of_pos_left hfloor' hpos
    linarith
  have hrange : |p - d * ((p / d).floor : ℚ)| < overflow := by
    rw [abs_of_nonneg hlow]
    exact hhigh.trans_lt (isDouble_natCast hle).lt_overflow
  obtain ⟨v, hv, hdouble, hnonneg⟩ := exists_ofRat x.isNegative hrange
  have hmodulo : x.modulo d = ofRat x.isNegative (p - d * ((p / d).floor : ℚ)) := by
    unfold modulo
    rw [hx.toRat?]
  rw [abs_of_nonneg hlow, abs_of_nonneg (hnonneg hlow)] at hdouble
  exact ⟨v, hmodulo ▸ hv, hnonneg hlow, by linarith⟩

/-- A quotient by a whole number, rounded, is at most two divisors' part of the magnitude. -/
theorem IsFinite.exists_div (hx : IsFinite x p) (hd : 0 < d) (hle : d ≤ 2 ^ 53) :
    ∃ v, IsFinite (x.div (ofRat false (d : ℚ))) v ∧ |v| ≤ 2 * (|p| / d) := by
  have hpos : (0 : ℚ) < d := by exact_mod_cast hd
  have hone : (1 : ℚ) ≤ d := by exact_mod_cast hd
  have hdivisor := hasValue_ofRat hle
  have habs : |p / d| = |p| / d := by rw [abs_div, abs_of_pos hpos]
  have hrange : |p / d| < overflow := by
    rw [habs]
    exact (div_le_self (abs_nonneg p) hone).trans_lt hx.inRange
  have hdiv : ∃ zeroNegative, x.div (ofRat false (d : ℚ)) = ofRat zeroNegative (p / d) := by
    have hq := hdivisor.toRat?
    obtain ⟨m, e, hy, -⟩ := hdivisor
    rw [hy] at hq ⊢
    cases x with
    | finite negative m' e' =>
      refine ⟨negative != false, ?_⟩
      unfold div
      dsimp only
      rw [hx.toRat?, hq]
      dsimp only
      rw [if_neg hpos.ne']
      rfl
    | infinite negative => cases hx.toRat?
    | nan => cases hx.toRat?
  obtain ⟨zeroNegative, hdiv⟩ := hdiv
  obtain ⟨v, hv, hdouble, -⟩ := exists_ofRat zeroNegative hrange
  exact ⟨v, hdiv ▸ hv, habs ▸ hdouble⟩

/-- The whole part of a number well in the range and the whole number after it are in the range. -/
theorem IsFinite.exists_floor (h : IsFinite x q) (hquarter : |q| ≤ overflow / 4) :
    ∃ v, IsFinite x.floor v ∧ |v + 1| < overflow := by
  have hsixteen : (16 : ℕ) < (overflow : ℚ) := (isDouble_natCast (by norm_num)).lt_overflow
  push_cast at hsixteen
  obtain ⟨hlow, hhigh⟩ := abs_le.1 hquarter
  have hfloor : ((q.floor : ℤ) : ℚ) ≤ q := Int.floor_le q
  have hfloor' : q < q.floor + 1 := Int.lt_floor_add_one q
  have hbelow : |(q.floor : ℚ)| ≤ overflow / 4 + 1 := abs_le.2 ⟨by linarith, by linarith⟩
  have hwhole : x.floor = ofRat x.isNegative q.floor := by
    unfold Binary64.floor
    rw [h.toRat?]
  obtain ⟨v, hv, hdouble, -⟩ := exists_ofRat x.isNegative (hbelow.trans_lt (by linarith))
  obtain ⟨hlow', hhigh'⟩ := abs_le.1 hdouble
  exact ⟨v, hwhole ▸ hv, abs_lt.2 ⟨by linarith, by linarith⟩⟩

/-- The whole quotient of a number from zero on is finite. -/
theorem IsFinite.exists_truncate?_floorDiv (hx : IsFinite x p) (hp : 0 ≤ p) (hd : 8 ≤ d)
    (hle : d ≤ 2 ^ 52) : ∃ n, (x.floorDiv d).truncate? = some n := by
  have hd' : (8 : ℚ) ≤ d := by exact_mod_cast hd
  have hrange : (2 * d : ℕ) < (overflow : ℚ) := (isDouble_natCast (by omega)).lt_overflow
  push_cast at hrange
  have hplt : p < overflow := (abs_lt.1 hx.inRange).2
  obtain ⟨rest, hrest, hrest₀, hrestle⟩ := hx.exists_modulo (d := d) (by omega) (by omega)
  obtain ⟨u, hu⟩ := hx.exists_sub hrest (abs_lt.2 ⟨by linarith, by linarith⟩)
  obtain ⟨t, ht, htle⟩ := hu.exists_div (d := d) (by omega) (by omega)
  have hquarter : |t| ≤ overflow / 4 := by
    have heighth : |u| / d ≤ overflow / 8 := div_le_div₀ overflow_pos.le hu.inRange.le (by norm_num) hd'
    linarith
  unfold floorDiv
  dsimp only
  generalize (x.sub (x.modulo d)).div (ofRat false (d : ℚ)) = quotient at ht ⊢
  -- The whole part of the rounded quotient may be one too small.
  obtain ⟨below, hbelow, hnext⟩ := ht.exists_floor hquarter
  obtain ⟨next, hnext, -⟩ := exists_ofRat quotient.isNegative hnext
  rw [ht.toRat?, hbelow.toRat?]
  dsimp only
  split
  · exact hnext.exists_truncate?
  · exact hbelow.exists_truncate?

/-- A whole number in the range is converted. -/
theorem IsFinite.ofInt?_eq {n : ℤ} (h : IsFinite (ofRat false (n : ℚ)) q) :
    ofInt? n = some (ofRat false (n : ℚ)) := by
  have hsign : (if n = 0 then false else decide (n < 0)) = decide (n < 0) := by
    split
    · rename_i hzero
      rw [hzero]
      rfl
    · rfl
  have hround : ofRat false (n : ℚ) = nearest (n < 0) n.natAbs 1 := by
    rw [ofRat, Rat.num_intCast, Rat.den_intCast, hsign]
  unfold ofInt?
  rw [hround] at h ⊢
  generalize nearest (n < 0) n.natAbs 1 = x at h ⊢
  cases x with
  | finite negative m e => rfl
  | infinite negative => cases h.toRat?
  | nan => cases h.toRat?

theorem isZero_eq_false (h : x.toRat? = some q) (hq : 0 < q) : x.isZero = false := by
  cases x with
  | finite negative m e =>
    refine beq_false_of_ne ?_
    rintro rfl
    rw [toRat?_finite] at h
    cases h
    simp at hq
  | infinite negative => cases h
  | nan => cases h

theorem above_of_toRat? (h : x.toRat? = some q) (n : ℤ) :
    (Quantity.real x).above (.whole n) = decide ((n : ℚ) < q) := by
  cases x with
  | finite negative m e =>
    rw [toRat?_finite] at h
    cases h
    exact above_finite negative m e n
  | infinite negative => cases h
  | nan => cases h

end Binary64

/-! ### Quantities -/

namespace Quantity

open Binary64

variable {a b q : Quantity} {v : ℚ}

/-- The exact value of a finite quantity. -/
def value? : Quantity → Option ℚ
  | whole n => some n
  | real x => x.toRat?

/-- A finite quantity of a magnitude in the range of double precision. -/
def InRange (q : Quantity) : Prop := ∃ v, q.value? = some v ∧ |v| < overflow

/-- A reading of a clock: the time since its beginning, in the range of double precision. -/
def IsTime (q : Quantity) : Prop := ∃ v, q.value? = some v ∧ 0 ≤ v ∧ v < overflow

theorem IsTime.inRange (h : q.IsTime) : q.InRange := by
  obtain ⟨v, hv, h₀, hlt⟩ := h
  exact ⟨v, hv, by rwa [abs_of_nonneg h₀]⟩

theorem isTime_whole (n : ℕ) (h : n ≤ 2 ^ 53) : (whole n).IsTime :=
  ⟨n, rfl, (isDouble_natCast h).nonneg, (isDouble_natCast h).lt_overflow⟩

/-- A quantity in the range is a double precision number. -/
theorem exists_toBinary64? (hv : q.value? = some v) (h : |v| < overflow) :
    ∃ x v', q.toBinary64? = some x ∧ IsFinite x v' ∧ (0 ≤ v → 0 ≤ v') := by
  cases q with
  | whole n =>
    cases hv
    obtain ⟨v', hv', -, hnonneg⟩ := exists_ofRat false h
    exact ⟨_, v', hv'.ofInt?_eq, hv', hnonneg⟩
  | real x => exact ⟨x, v, rfl, ⟨hv, h⟩, id⟩

theorem InRange.exists_fixed? (h : q.InRange) (places : ℕ) : ∃ s, q.fixed? places = some s := by
  obtain ⟨v, hv, hrange⟩ := h
  obtain ⟨x, -, hx, -⟩ := exists_toBinary64? hv hrange
  exact ⟨x.fixed places, by rw [fixed?, hx]; rfl⟩

theorem abs_sub_lt {p r bound : ℚ} (hp₀ : 0 ≤ p) (hp : p < bound) (hr₀ : 0 ≤ r) (hr : r < bound) :
    |p - r| < bound := abs_lt.2 ⟨by linarith, by linarith⟩

/-- **The time between two readings is in the range**, whichever of them is the later one. -/
theorem IsTime.exists_sub? (ha : a.IsTime) (hb : b.IsTime) :
    ∃ q, a.sub? b = some q ∧ q.InRange := by
  obtain ⟨p, hp, hp₀, hplt⟩ := ha
  obtain ⟨r, hr, hr₀, hrlt⟩ := hb
  -- As soon as one of the two is a double precision number, both are converted.
  have hreal (hsub : a.sub? b = do return real ((← a.toBinary64?).sub (← b.toBinary64?))) :
      ∃ q, a.sub? b = some q ∧ q.InRange := by
    obtain ⟨x, p', hx, hxp, hp₀'⟩ := exists_toBinary64? hp (by rwa [abs_of_nonneg hp₀])
    obtain ⟨y, r', hy, hyr, hr₀'⟩ := exists_toBinary64? hr (by rwa [abs_of_nonneg hr₀])
    obtain ⟨v, hv⟩ := hxp.exists_sub hyr
      (abs_sub_lt (hp₀' hp₀) (abs_lt.1 hxp.inRange).2 (hr₀' hr₀) (abs_lt.1 hyr.inRange).2)
    rw [hsub, hx, hy]
    exact ⟨_, rfl, v, hv.toRat?, hv.inRange⟩
  cases a with
  | whole m =>
    cases b with
    | whole n =>
      cases hp
      cases hr
      refine ⟨.whole (m - n), rfl, ((m - n : ℤ) : ℚ), rfl, ?_⟩
      rw [Int.cast_sub]
      exact abs_sub_lt hp₀ hplt hr₀ hrlt
    | real y => exact hreal rfl
  | real x => exact hreal rfl

end Quantity

end UsageLedger.Number
