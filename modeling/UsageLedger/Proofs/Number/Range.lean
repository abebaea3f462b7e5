/-
UsageLedger/Proofs/Number/Range.lean

Which whole numbers are in the range of double precision: all below
`2 ^ 1024 - 2 ^ 970`, half a unit above the greatest finite number.  A number there
rounds to fewer than `2 ^ 53` units of the largest kind.

So a size in that range can be put into a sentence (`Size.exists_scaled`): whatever
comes of the first division is double precision, and goes through all units.
-/
import Mathlib.Tactic.Linarith
import UsageLedger.Size

namespace UsageLedger

namespace Number

/-- What is less than half a unit below a bound is not rounded up to it. -/
theorem roundQuotient_lt {num den k : ℕ} (h : 2 * num + den < 2 * (k * den)) :
    roundQuotient num den < k := by
  -- The product of the quotient is one term, so that the rest is linear.
  have hdiv : den * (num / den) + num % den = num := Nat.div_add_mod num den
  have hlt : num / den < k := by
    by_contra hk
    have hmul : k * den ≤ num / den * den := Nat.mul_le_mul_right den (Nat.le_of_not_lt hk)
    rw [Nat.mul_comm (num / den)] at hmul
    omega
  have hnext : den ≤ 2 * (num % den) → num / den + 1 < k := by
    intro hrest
    by_contra hk
    have hmul : k * den ≤ (num / den + 1) * den := Nat.mul_le_mul_right den (Nat.le_of_not_lt hk)
    rw [Nat.succ_mul, Nat.mul_comm (num / den)] at hmul
    omega
  simp only [roundQuotient]
  split
  · exact hlt
  · rename_i hrest
    have hup := hnext (Nat.le_of_not_lt hrest)
    split
    · exact hup
    · split
      · exact hlt
      · exact hup

/-- The least whole number beyond the range of double precision. -/
def overflow : ℤ := 2 ^ 1024 - 2 ^ 970

namespace Binary64

theorem unitExponent_one {num : ℕ} (h : num ≠ 0) : unitExponent num 1 = (num.log2 : ℤ) - 52 := by
  have hone : (1 : ℕ).log2 = 0 := by decide
  have hreaches : 1 * 2 ^ ((num.log2 : ℤ) - (0 : ℕ)).toNat ≤
      num * 2 ^ (-((num.log2 : ℤ) - (0 : ℕ))).toNat := by
    have hpos : ((num.log2 : ℤ) - (0 : ℕ)).toNat = num.log2 := by omega
    have hneg : (-((num.log2 : ℤ) - (0 : ℕ))).toNat = 0 := by omega
    rw [hpos, hneg, Nat.one_mul, Nat.pow_zero, Nat.mul_one]
    exact Nat.log2_self_le h
  unfold unitExponent
  dsimp only
  rw [hone, if_pos hreaches]
  omega

/-- A magnitude in the range rounds to a finite number.  The exponent is a variable, which keeps the
powers from being computed. -/
theorem exists_nearest (num : ℕ) {k : ℕ} (hk : k = 970) (h : num + 2 ^ k < 2 ^ (k + 54))
    (negative : Bool) : ∃ m e, nearest negative num 1 = finite negative m e := by
  unfold nearest
  split
  · exact ⟨_, _, rfl⟩
  · rename_i hn
    have hlog : num.log2 < k + 54 := (Nat.log2_lt hn).2 ((Nat.le_add_right _ _).trans_lt h)
    rw [unitExponent_one hn]
    dsimp only
    generalize hm : roundQuotient (num * 2 ^ (-((num.log2 : ℤ) - 52)).toNat)
      (1 * 2 ^ ((num.log2 : ℤ) - 52).toNat) = m
    by_cases htop : m = 2 ^ 53
    · -- Rounding up to the next power of two needs one of the largest units, or is below them.
      have hbelow : num.log2 < 1023 := by
        by_contra hlarge
        have hlargest : num.log2 = 1023 := by omega
        have hlt : m < 2 ^ 53 := by
          have hdown : (-(((1023 : ℕ) : ℤ) - 52)).toNat = 0 := by decide
          have hup : (((1023 : ℕ) : ℤ) - 52).toNat = k + 1 := by omega
          rw [← hm, hlargest, hdown, hup]
          refine roundQuotient_lt ?_
          rw [pow_succ]
          rw [pow_add] at h
          generalize (2 : ℕ) ^ k = unit at h ⊢
          omega
        exact absurd htop hlt.ne
      rw [if_pos htop]
      dsimp only
      rw [if_neg (by omega)]
      exact ⟨_, _, rfl⟩
    · rw [if_neg htop]
      dsimp only
      rw [if_neg (by omega)]
      exact ⟨_, _, rfl⟩

theorem exists_ofInt? {n : ℤ} (h₀ : 0 ≤ n) (h : n < overflow) : ∃ x, ofInt? n = some x := by
  obtain ⟨k, hk⟩ : ∃ k : ℕ, k = 970 := ⟨_, rfl⟩
  have hrange : n.natAbs + 2 ^ k < 2 ^ (k + 54) := by
    unfold overflow at h
    subst hk
    omega
  obtain ⟨m, e, hfinite⟩ := exists_nearest n.natAbs hk hrange (n < 0)
  unfold ofInt?
  rw [hfinite]
  exact ⟨_, rfl⟩

end Binary64

end Number

namespace Size

open Number

/-- A double precision number goes through the units. -/
theorem exists_scaledIn?_real (units : List String) (x : Binary64) :
    ∃ s, scaledIn? units (.real x) = some s := by
  induction units generalizing x with
  | nil => exact ⟨_, rfl⟩
  | cons unit larger ih =>
    unfold scaledIn?
    -- A quotient of double precision numbers may be infinite, but there always is one.
    split
    · exact ⟨_, rfl⟩
    · have hdiv : (Quantity.real x).div? (.real (Binary64.nearest false 1024 1)) =
          some (x.div (Binary64.nearest false 1024 1)) := rfl
      rw [hdiv]
      exact ih _

theorem exists_scaled {n : ℤ} (h₀ : 0 ≤ n) (h : n < overflow) : ∃ s, scaled (.whole n) = .ok s := by
  obtain ⟨x, hx⟩ := Binary64.exists_ofInt? h₀ h
  have hin : ∃ s, scaledIn? sentenceUnits (.whole n) = some s := by
    unfold sentenceUnits scaledIn?
    split
    · exact ⟨_, by rw [Quantity.fixed?, Quantity.toBinary64?, hx]; rfl⟩
    · have hdiv : (Quantity.whole n).div? (.real (Binary64.nearest false 1024 1)) =
          some (x.div (Binary64.nearest false 1024 1)) := by
        have hn : (Quantity.whole n).toBinary64? = some x := hx
        simp only [Quantity.div?, hn]
        rfl
      rw [hdiv]
      exact exists_scaledIn?_real _ _
  obtain ⟨s, hs⟩ := hin
  exact ⟨s, by rw [scaled, hs]⟩

end Size

end UsageLedger
