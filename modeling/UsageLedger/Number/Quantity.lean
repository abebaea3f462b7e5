/-
UsageLedger/Number/Quantity.lean

Quantities: whole numbers of any size beside double precision numbers.  Two
whole numbers are added and compared exactly; as soon as one of the two is a
double precision number the other is converted, except in comparisons, which are
always exact.
-/
import UsageLedger.Number.Decimal

namespace UsageLedger.Number

/-- A whole number or a double precision number. -/
inductive Quantity
  | whole (n : Int)
  | real (x : Binary64)
  deriving DecidableEq, Repr, Inhabited

namespace Quantity

/-- As a double precision number; none if a whole number is out of range. -/
def toBinary64? : Quantity → Option Binary64
  | whole n => Binary64.ofInt? n
  | real x => some x

/-- The order of two quantities; none if one is not a number. -/
def compare? : Quantity → Quantity → Option Ordering
  | whole a, whole b => some (compare a b)
  | real x, real y => x.compare? y
  | whole a, real y =>
    match y with
    | .nan => none
    | .infinite negative => some (if negative then .gt else .lt)
    | y => y.toRat?.map fun q => compareRat (a : Rat) q
  | real x, whole b =>
    match x with
    | .nan => none
    | .infinite negative => some (if negative then .lt else .gt)
    | x => x.toRat?.map fun p => compareRat p (b : Rat)
where
  /-- The order of two rationals. -/
  compareRat (p q : Rat) : Ordering := if p < q then .lt else if q < p then .gt else .eq

/-- Strictly below; false if one is not a number. -/
def below (a b : Quantity) : Bool := a.compare? b == some .lt

/-- Strictly above; false if one is not a number. -/
def above (a b : Quantity) : Bool := a.compare? b == some .gt

theorem above_whole (a b : Int) : (whole a).above (whole b) = decide (b < a) := by
  unfold above compare?
  rw [Bool.eq_iff_iff, beq_iff_eq, decide_eq_true_iff, Option.some_inj]
  exact Int.compare_eq_gt

/-- The sum; none if a whole number is out of range. -/
def add? : Quantity → Quantity → Option Quantity
  | whole a, whole b => some (whole (a + b))
  | a, b => do return real ((← a.toBinary64?).add (← b.toBinary64?))

/-- The difference; none if a whole number is out of range. -/
def sub? : Quantity → Quantity → Option Quantity
  | whole a, whole b => some (whole (a - b))
  | a, b => do return real ((← a.toBinary64?).sub (← b.toBinary64?))

/-- The quotient as a double precision number, rounded once; none if it or an operand is out of
range, or the divisor is zero. -/
def div? : Quantity → Quantity → Option Binary64
  | whole a, whole b =>
    if b = 0 then none
    else
      match Binary64.ofRat (b < 0) ((a : Rat) / (b : Rat)) with
      | .infinite _ => none
      | x => some x
  | a, b => do
    let y ← b.toBinary64?
    if y.isZero then none else return (← a.toBinary64?).div y

/-- With a fixed number of decimal places; none if a whole number is out of range. -/
def fixed? (places : Nat) (a : Quantity) : Option String := a.toBinary64?.map (·.fixed places)

end Quantity

end UsageLedger.Number
