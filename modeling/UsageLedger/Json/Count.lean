/-
UsageLedger/Json/Count.lean

Whole numbers out of values.  Numbers lose their fraction, texts are read as
numerals.  A count is such a number where everything that is unusable or
negative stands for zero; only an infinite number is a fault.
-/
import UsageLedger.Json.Lookup
import UsageLedger.Number.Numeral

namespace UsageLedger.Json

open Number

/-- The whole number that a value stands for. -/
def toWhole : Json → Except Fault Int
  | bool b => .ok (if b then 1 else 0)
  | int n => .ok n
  | real x =>
    match x with
    | .nan => .error (.invalid .notANumber)
    | x => match x.truncate? with
      | some n => .ok n
      | none => .error .outOfRange
  | text s =>
    match integer? s with
    | .ok n => .ok n
    | .error .malformed => .error (.invalid (.numeral s))
    | .error (.tooLong digits) => .error (.invalid (.longNumeral digits))
  | _ => .error .wrongKind

/-- The count that a value stands for. -/
def toCount (v : Json) : Except Fault Nat :=
  match v.toWhole with
  | .ok n => .ok n.toNat
  | .error .outOfRange => .error .outOfRange
  | .error _ => .ok 0

/-- Whether a value is an infinite number. -/
def isInfinite : Json → Bool
  | real (.infinite _) => true
  | _ => false

/-- Infinite numbers alone have no count. -/
theorem toCount_eq_error_iff {v : Json} {f : Fault} :
    v.toCount = .error f ↔ f = .outOfRange ∧ v.isInfinite = true := by
  unfold toCount
  cases v with
  | real x => cases x <;> simp [toWhole, Binary64.truncate?, isInfinite, eq_comm]
  | text s =>
    simp only [toWhole]
    cases integer? s with
    | ok n => simp [isInfinite]
    | error e => cases e <;> simp [isInfinite]
  | _ => simp [toWhole, isInfinite]

/-- Everything but an infinite number has a count. -/
theorem exists_toCount {v : Json} (h : v.isInfinite = false) : ∃ n, v.toCount = .ok n := by
  cases hc : v.toCount with
  | ok n => exact ⟨n, rfl⟩
  | error f =>
    have := (toCount_eq_error_iff.1 hc).2
    rw [h] at this
    cases this

end UsageLedger.Json
