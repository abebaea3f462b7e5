/-
UsageLedger/Number/Binary64.lean

Double precision numbers in exact arithmetic.  A finite number is a sign, a
significand below `2 ^ 53` and a power of two; every operation takes the exact
rational result and rounds it once, to the nearest number, a tie going to the
even significand.  The sign of zero is kept, since it shows when a number is
written.
-/
import UsageLedger.Number.Rounding

namespace UsageLedger.Number

/-- A double precision number. -/
inductive Binary64
  /-- The number `± significand · 2 ^ exponent`. -/
  | finite (negative : Bool) (significand : Nat) (exponent : Int)
  | infinite (negative : Bool)
  | nan
  deriving DecidableEq, Repr, Inhabited

namespace Binary64

/-- Zero, with its sign. -/
def zero (negative : Bool) : Binary64 := finite negative 0 (-1074)

/-- The exponent of the unit in which `num / den` is rounded: 53 binary digits are kept, but no unit
is smaller than `2 ^ -1074`. -/
def unitExponent (num den : Nat) : Int :=
  let guess : Int := (num.log2 : Int) - den.log2
  let reaches := den * 2 ^ guess.toNat ≤ num * 2 ^ (-guess).toNat
  max ((if reaches then guess else guess - 1) - 52) (-1074)

/-- The number nearest to `num / den`.  A magnitude that rounds to `2 ^ 1024` or more is infinite. -/
def nearest (negative : Bool) (num den : Nat) : Binary64 :=
  if num = 0 then zero negative
  else
    let e := unitExponent num den
    let m := roundQuotient (num * 2 ^ (-e).toNat) (den * 2 ^ e.toNat)
    let (m, e) := if m = 2 ^ 53 then (2 ^ 52, e + 1) else (m, e)
    if e > 971 then infinite negative else finite negative m e

/-- The number nearest to a rational; zero gets the given sign. -/
def ofRat (zeroNegative : Bool) (q : Rat) : Binary64 :=
  nearest (if q.num = 0 then zeroNegative else q.num < 0) q.num.natAbs q.den

/-- The number nearest to an integer, unless that is infinite. -/
def ofInt? (n : Int) : Option Binary64 :=
  match nearest (n < 0) n.natAbs 1 with
  | infinite _ => none
  | x => some x

/-- The exact value of a finite number. -/
def toRat? : Binary64 → Option Rat
  | finite negative m e =>
    let magnitude := mkRat (m * 2 ^ e.toNat : Nat) (2 ^ (-e).toNat)
    some (if negative then -magnitude else magnitude)
  | _ => none

/-- Whether the sign is negative; `nan` has none. -/
def isNegative : Binary64 → Bool
  | finite negative _ _ => negative
  | infinite negative => negative
  | nan => false

/-- Whether the number equals zero, of either sign. -/
def isZero : Binary64 → Bool
  | finite _ m _ => m == 0
  | _ => false

/-- The integer part of a finite number, toward zero. -/
def truncate? : Binary64 → Option Int
  | finite negative m e =>
    let magnitude : Nat := m * 2 ^ e.toNat / 2 ^ (-e).toNat
    some (if negative then -(magnitude : Int) else magnitude)
  | _ => none

/-- The order of two numbers; none if one of them is `nan`. -/
def compare? : Binary64 → Binary64 → Option Ordering
  | nan, _ => none
  | _, nan => none
  | infinite a, infinite b => some (if a == b then .eq else if a then .lt else .gt)
  | infinite a, _ => some (if a then .lt else .gt)
  | _, infinite b => some (if b then .gt else .lt)
  | x, y =>
    match x.toRat?, y.toRat? with
    | some p, some q => some (if p < q then .lt else if q < p then .gt else .eq)
    | _, _ => none

/-- The product. -/
def mul (x y : Binary64) : Binary64 :=
  let negative := x.isNegative != y.isNegative
  match x, y with
  | nan, _ => nan
  | _, nan => nan
  | infinite _, y => if y.isZero then nan else infinite negative
  | x, infinite _ => if x.isZero then nan else infinite negative
  | x, y =>
    match x.toRat?, y.toRat? with
    | some p, some q => ofRat negative (p * q)
    | _, _ => nan

/-- The quotient of a finite or infinite number and a finite number other than zero. -/
def div (x y : Binary64) : Binary64 :=
  let negative := x.isNegative != y.isNegative
  match x, y with
  | nan, _ => nan
  | _, nan => nan
  | infinite _, infinite _ => nan
  | infinite _, _ => infinite negative
  | _, infinite _ => zero negative
  | x, y =>
    match x.toRat?, y.toRat? with
    | some p, some q => if q = 0 then nan else ofRat negative (p / q)
    | _, _ => nan

/-- The opposite number. -/
def neg : Binary64 → Binary64
  | finite negative m e => finite (!negative) m e
  | infinite negative => infinite (!negative)
  | nan => nan

/-- The sum.  A sum of zero is positive unless both terms are negative. -/
def add (x y : Binary64) : Binary64 :=
  match x, y with
  | nan, _ => nan
  | _, nan => nan
  | infinite a, infinite b => if a == b then infinite a else nan
  | infinite a, _ => infinite a
  | _, infinite b => infinite b
  | x, y =>
    match x.toRat?, y.toRat? with
    | some p, some q => ofRat (x.isNegative && y.isNegative) (p + q)
    | _, _ => nan

/-- The difference. -/
def sub (x y : Binary64) : Binary64 := add x y.neg

/-- The greatest whole number not above a finite number. -/
def floor (x : Binary64) : Binary64 :=
  match x.toRat? with
  | some q => ofRat x.isNegative q.floor
  | none => x

/-- The remainder of division by a positive number, not negative and below the divisor. -/
def modulo (x : Binary64) (divisor : Nat) : Binary64 :=
  match x.toRat? with
  | some q => ofRat x.isNegative (q - (divisor : Rat) * ((q / (divisor : Rat)).floor : Rat))
  | none => nan

/-- The whole quotient that belongs to `modulo`: the number less its remainder, divided, and brought
to the nearest whole number. -/
def floorDiv (x : Binary64) (divisor : Nat) : Binary64 :=
  let quotient := (x.sub (x.modulo divisor)).div (ofRat false (divisor : Rat))
  match quotient.toRat?, quotient.floor.toRat? with
  | some q, some below =>
    if q - below > 1 / 2 then ofRat quotient.isNegative (below + 1) else quotient.floor
  | _, _ => nan

end Binary64

end UsageLedger.Number
