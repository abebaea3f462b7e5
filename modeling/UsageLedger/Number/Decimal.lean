/-
UsageLedger/Number/Decimal.lean

Double precision numbers and decimal text.  `ofDecimal` reads digits and a power
of ten, `fixed` writes a fixed number of places, and `shortest` finds the fewest
digits that read back, which a `Layout` turns into text.
-/
import UsageLedger.Number.Binary64

namespace UsageLedger.Number

namespace Binary64

/-- How many decimal digits a natural has. -/
def digitCount (n : Nat) : Nat := (toString n).length

/-- The number nearest to `digits · 10 ^ exponent`.  Magnitudes far outside the range are settled by
their order of magnitude alone. -/
def ofDecimal (negative : Bool) (digits : Nat) (exponent : Int) : Binary64 :=
  if digits = 0 then zero negative
  else
    let order := exponent + digitCount digits
    if order > 400 then infinite negative
    else if order < -400 then zero negative
    else nearest negative (digits * 10 ^ exponent.toNat) (10 ^ (-exponent).toNat)

/-- The names of the numbers that have no digits. -/
structure SpecialNames where
  infinity : String
  notANumber : String

/-- The names inside sentences and columns. -/
def plainNames : SpecialNames := ⟨"inf", "nan"⟩

/-- The digits of `scaled / 10 ^ places`, all places written. -/
def pointed (places scaled : Nat) : String :=
  let digits := (toString scaled).toList
  let digits := List.replicate (places + 1 - digits.length) '0' ++ digits
  let whole := digits.take (digits.length - places)
  if places = 0 then String.ofList whole
  else String.ofList (whole ++ '.' :: digits.drop (digits.length - places))

/-- A number with a fixed number of decimal places, rounded from its exact value, a tie going to the
even digit. -/
def fixed (places : Nat) : Binary64 → String
  | finite negative m e =>
    let scaled := roundQuotient (m * 2 ^ e.toNat * 10 ^ places) (2 ^ (-e).toNat)
    (if negative then "-" else "") ++ pointed places scaled
  | infinite negative => (if negative then "-" else "") ++ plainNames.infinity
  | nan => plainNames.notANumber

/-- Digits and the power of ten of the last of them. -/
structure Digits where
  digits : Nat
  exponent : Int

/-- The power of ten that has `count` digits of `num / den` above it, or one more. -/
def lastPlace (num den count : Nat) : Int :=
  let order : Int := (digitCount num : Int) - digitCount den
  let reaches := den * 10 ^ order.toNat ≤ num * 10 ^ (-order).toNat
  (if reaches then order else order - 1) + 1 - count

/-- The two neighbours of a magnitude on the grid of `count` digits that read back as it, the nearer
one first; of two equally near ones the even one first. -/
def candidates (m : Nat) (e : Int) (count : Nat) : List Digits :=
  let num := m * 2 ^ e.toNat
  let den := 2 ^ (-e).toNat
  let place := lastPlace num den count
  let scaledNum := num * 10 ^ (-place).toNat
  let scaledDen := den * 10 ^ place.toNat
  let below := scaledNum / scaledDen
  let near := roundQuotient scaledNum scaledDen
  let far := if near = below then below + 1 else below
  ([near, far].map fun d => Digits.mk d place).filter fun d =>
    ofDecimal false d.digits d.exponent == finite false m e

/-- The fewest digits that read back as a magnitude; of those the nearest ones. -/
def shortest (m : Nat) (e : Int) : Digits :=
  let found := (List.range 18).findSome? fun count => (candidates m e count).head?
  found.getD ⟨m, e⟩

/-- How the shortest digits are laid out. -/
structure Layout where
  /-- The powers of ten of the first digit that are written without an exponent. -/
  lowest : Int
  highest : Int
  /-- The least number of digits of an exponent. -/
  exponentWidth : Nat
  names : SpecialNames

/-- The layout in messages. -/
def messageLayout : Layout := ⟨-4, 15, 2, plainNames⟩

/-- The layout in data files. -/
def dataLayout : Layout := ⟨-4, 15, 1, ⟨"Infinity", "NaN"⟩⟩

/-- Digits with trailing zeros removed. -/
def trimZeros : Nat → Digits → Digits
  | 0, d => d
  | steps + 1, d =>
    if d.digits ≠ 0 ∧ d.digits % 10 = 0 then trimZeros steps ⟨d.digits / 10, d.exponent + 1⟩ else d

/-- Digits as text: positional, or one digit before the point and an exponent. -/
def Layout.write (layout : Layout) (d : Digits) : String :=
  let d := trimZeros (digitCount d.digits) d
  let ds := (toString d.digits).toList
  let order := d.exponent + ds.length - 1
  if layout.lowest ≤ order ∧ order ≤ layout.highest then
    if 0 ≤ d.exponent then
      String.ofList (ds ++ List.replicate d.exponent.toNat '0') ++ ".0"
    else pointed (-d.exponent).toNat d.digits
  else
    let mantissa := match ds with
      | [one] => [one]
      | one :: more => one :: '.' :: more
      | [] => []
    let power := toString order.natAbs
    let sign := if order < 0 then "e-" else "e+"
    String.ofList mantissa ++ sign ++
      String.ofList (List.replicate (layout.exponentWidth - power.length) '0') ++ power

/-- A number written with the fewest digits that read back. -/
def write (layout : Layout) : Binary64 → String
  | finite negative m e =>
    (if negative then "-" else "") ++ if m = 0 then "0.0" else layout.write (shortest m e)
  | infinite negative => (if negative then "-" else "") ++ layout.names.infinity
  | nan => layout.names.notANumber

end Binary64

end UsageLedger.Number
