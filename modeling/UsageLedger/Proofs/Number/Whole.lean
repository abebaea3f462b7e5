/-
UsageLedger/Proofs/Number/Whole.lean

Whole numbers in double precision are divided without rounding.  Up to `2 ^ 53` every
whole number is a double, so the remainder of a division, the number less its remainder
and the quotient of that are all found as they are, one after another
(`HasValue.modulo`, `HasValue.floorDiv`).  A whole number given as a double comes to the
same quotients and remainders as an integer does.
-/
import UsageLedger.Proofs.Number.Rounded

namespace UsageLedger.Number

namespace Binary64

variable {x y : Binary64} {p q : ℚ} {n d : ℕ}

/-! ### Exact operations -/

/-- A whole number up to `2 ^ 53` is not rounded. -/
theorem hasValue_ofRat (h : n ≤ 2 ^ 53) : HasValue (ofRat false n) n := by
  have hdouble := isDouble_natCast h
  obtain ⟨v, hv, hnearest⟩ := exists_ofRat_of_lt hdouble.nonneg hdouble.lt_overflow
  rwa [hnearest.eq_of_isDouble hdouble] at hv

theorem HasValue.isNegative (h : HasValue x p) : x.isNegative = false := by
  obtain ⟨m, e, rfl, -⟩ := h
  rfl

/-- A difference of numbers from zero on is the exact one, rounded once. -/
theorem HasValue.sub_eq (hx : HasValue x p) (hy : HasValue y q) : x.sub y = ofRat false (p - q) := by
  have hp := hx.toRat?
  obtain ⟨m, e, rfl, -⟩ := hx
  obtain ⟨m', e', rfl, rfl⟩ := hy
  have hq : (finite true m' e').toRat? = some (-((m' : ℚ) * 2 ^ e')) := toRat?_finite true m' e'
  unfold sub neg add
  dsimp only
  rw [Bool.not_false, hp, hq, sub_eq_add_neg]
  rfl

/-- A quotient is the exact one, rounded once. -/
theorem HasValue.div_eq (hx : HasValue x p) (hy : HasValue y q) (h : q ≠ 0) :
    x.div y = ofRat false (p / q) := by
  have hp := hx.toRat?
  have hq := hy.toRat?
  obtain ⟨m, e, rfl, -⟩ := hx
  obtain ⟨m', e', rfl, -⟩ := hy
  unfold div
  dsimp only
  rw [hp, hq]
  dsimp only
  rw [if_neg h]
  rfl

/-! ### Division with remainder -/

/-- The remainder of whole numbers is exact. -/
theorem HasValue.modulo (hx : HasValue x n) (hn : n ≤ 2 ^ 53) : HasValue (x.modulo d) (n % d : ℕ) := by
  have hrest : (n : ℚ) - d * (⌊(n : ℚ) / d⌋ : ℤ) = (n % d : ℕ) := by
    have hsum : (n : ℚ) = (n % d : ℕ) + (d * (n / d) : ℕ) := by rw [← Nat.cast_add, Nat.mod_add_div]
    rw [Rat.floor_natCast_div_natCast, sub_eq_iff_eq_add, hsum]
    push_cast
    rfl
  have hmodulo : x.modulo d = ofRat false (n % d : ℕ) := by
    unfold Binary64.modulo
    rw [hx.toRat?, hx.isNegative, ← hrest]
    rfl
  rw [hmodulo]
  exact hasValue_ofRat ((Nat.mod_le n d).trans hn)

/-- The quotient of whole numbers is exact. -/
theorem HasValue.floorDiv (hx : HasValue x n) (hn : n ≤ 2 ^ 53) (hd : d ≠ 0) (hdle : d ≤ 2 ^ 53) :
    HasValue (x.floorDiv d) (n / d : ℕ) := by
  have hden : (d : ℚ) ≠ 0 := by exact_mod_cast hd
  have hquotientle : n / d ≤ 2 ^ 53 := (Nat.div_le_self n d).trans hn
  -- What is left without the remainder is a multiple of the divisor.
  have hwhole : HasValue (x.sub (x.modulo d)) (d * (n / d) : ℕ) := by
    have hvalue : ((n : ℕ) : ℚ) - (n % d : ℕ) = (d * (n / d) : ℕ) := by
      rw [sub_eq_iff_eq_add]
      exact_mod_cast (Nat.div_add_mod n d).symm
    rw [hx.sub_eq (hx.modulo hn), hvalue]
    exact hasValue_ofRat ((Nat.mul_div_le n d).trans hn)
  have hquotient : (x.sub (x.modulo d)).div (ofRat false (d : ℚ)) = ofRat false (n / d : ℕ) := by
    rw [hwhole.div_eq (hasValue_ofRat hdle) hden, Nat.cast_mul, mul_div_cancel_left₀ _ hden]
  have hexact : HasValue (ofRat false (n / d : ℕ)) (n / d : ℕ) := hasValue_ofRat hquotientle
  have hfloor : (ofRat false (n / d : ℕ)).floor = ofRat false (n / d : ℕ) := by
    have hvalue : ((n / d : ℕ) : ℚ).floor = ((n / d : ℕ) : ℤ) := by
      rw [← Int.cast_natCast, Rat.floor_intCast]
    unfold Binary64.floor
    rw [hexact.toRat?, hexact.isNegative]
    dsimp only
    rw [hvalue, Int.cast_natCast]
  have hdivision : x.floorDiv d = ofRat false (n / d : ℕ) := by
    unfold Binary64.floorDiv
    dsimp only
    rw [hquotient, hfloor, hexact.toRat?]
    dsimp only
    rw [if_neg (by norm_num)]
  rwa [hdivision]

theorem below_of_toRat? (h : x.toRat? = some q) (n : ℤ) :
    (Quantity.real x).below (.whole n) = decide (q < n) := by
  cases x with
  | finite negative m e =>
    have hcompare : (Quantity.real (finite negative m e)).compare? (.whole n) =
        (finite negative m e).toRat?.map fun p => Quantity.compare?.compareRat p n := rfl
    rw [Quantity.below, hcompare, h, Option.map_some, Quantity.compare?.compareRat]
    by_cases hlt : q < n
    · simp [hlt]
    · simp only [hlt, if_false, decide_false]
      split <;> rfl
  | infinite negative => cases h
  | nan => cases h

end Binary64

/-! ### Whole quantities -/

namespace Quantity

open Binary64

variable {q : Quantity} {n : ℤ}

/-- The exact value of a quantity is a whole number. -/
def IsWhole : Quantity → ℤ → Prop
  | .whole m, n => m = n
  | .real x, n => x.toRat? = some (n : ℚ)

/-- A double with a positive value is one without a minus sign. -/
theorem IsWhole.hasValue {x : Binary64} (h : IsWhole (.real x) n) (hn : 0 < n) : HasValue x n := by
  have hpos : (0 : ℚ) < n := by exact_mod_cast hn
  cases x with
  | finite negative m e =>
    have hvalue : some (if negative then -((m : ℚ) * 2 ^ e) else m * 2 ^ e) = some (n : ℚ) :=
      (toRat?_finite negative m e).symm.trans h
    have hnonneg : (0 : ℚ) ≤ m * 2 ^ e := by positivity
    cases negative with
    | false => exact ⟨m, e, rfl, (Option.some.inj hvalue).symm⟩
    | true =>
      have hneg : -((m : ℚ) * 2 ^ e) = n := Option.some.inj hvalue
      linarith
  | infinite negative => cases h
  | nan => cases h

theorem IsWhole.below_whole (h : q.IsWhole n) (hn : 0 < n) (bound : ℤ) :
    q.below (.whole bound) = decide (n < bound) := by
  cases q with
  | whole m =>
    obtain rfl : m = n := h
    unfold below
    rw [Bool.eq_iff_iff, beq_iff_eq, decide_eq_true_iff, compare?, Option.some_inj]
    exact Int.compare_eq_lt
  | real x =>
    rw [below_of_toRat? (h.hasValue hn).toRat?]
    exact decide_eq_decide.2 Int.cast_lt

/-- Beyond the range a whole number is not converted. -/
theorem ofInt?_of_overflow_le (h : overflow ≤ n) : ofInt? n = none := by
  have hpos : (0 : ℤ) < overflow := by exact_mod_cast overflow_pos
  obtain ⟨k, rfl⟩ := Int.eq_ofNat_of_zero_le (hpos.le.trans h)
  have hle : (overflow : ℚ) ≤ (k : ℚ) / (1 : ℕ) := by
    rw [Nat.cast_one, div_one]
    exact_mod_cast h
  unfold ofInt?
  rw [Int.natAbs_natCast, nearest_of_overflow_le _ one_ne_zero hle]

theorem fixed?_whole_of_overflow_le (h : overflow ≤ n) (places : ℕ) :
    (whole n).fixed? places = none := by
  rw [fixed?, toBinary64?, ofInt?_of_overflow_le h]
  rfl

theorem IsWhole.exists_fixed? (h : q.IsWhole n) (hn : n.natAbs < 2 ^ 53) (places : ℕ) :
    ∃ s, q.fixed? places = some s := by
  cases q with
  | whole m =>
    obtain rfl : m = n := h
    obtain ⟨x, hx, -⟩ := isExact_of_lt hn
    exact ⟨_, by rw [fixed?, toBinary64?, hx]; rfl⟩
  | real x => exact ⟨_, rfl⟩

end Quantity

end UsageLedger.Number
