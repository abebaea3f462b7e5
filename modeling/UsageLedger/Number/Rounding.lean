/-
UsageLedger/Number/Rounding.lean

Rounding a quotient of naturals to the nearest natural, a tie going to the even
neighbour.  Double precision numbers and fixed-place decimals both rest on it.
-/
import UsageLedger.Arithmetic

namespace UsageLedger.Number

/-- The natural nearest to `num / den`; a tie goes to the even neighbour. -/
def roundQuotient (num den : Nat) : Nat :=
  let below := num / den
  let rest := num % den
  if 2 * rest < den then below
  else if den < 2 * rest then below + 1
  else if below % 2 = 0 then below
  else below + 1

/-- A quotient without rest is kept as it is. -/
theorem roundQuotient_mul_left (n : Nat) {den : Nat} (h : 0 < den) :
    roundQuotient (n * den) den = n := by
  simp [roundQuotient, h]

/-- The result lies within one of the exact quotient. -/
theorem roundQuotient_le (num den : Nat) : roundQuotient num den ≤ num / den + 1 := by
  simp only [roundQuotient]
  split
  · omega
  · split
    · omega
    · split <;> omega

theorem le_roundQuotient (num den : Nat) : num / den ≤ roundQuotient num den := by
  simp only [roundQuotient]
  split
  · omega
  · split
    · omega
    · split <;> omega

end UsageLedger.Number
