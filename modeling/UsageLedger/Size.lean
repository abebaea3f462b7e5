/-
UsageLedger/Size.lean

Sizes in bytes as text.  A size is written as a decimal number and a unit; the
short units and those with an `i` are powers of 1024, the others powers of 1000.
Labels of histogram columns are exact: the largest binary unit that divides the
size; there is none where its number has too many digits to be written.  In
sentences a size is scaled down and written with two decimals.
-/
import UsageLedger.Json.Count
import UsageLedger.Json.Display
import UsageLedger.Text.Blank

namespace UsageLedger.Size

open Number

/-! ### Reading -/

/-- The units that a size may be written in, and their numbers of bytes. -/
def units : List (String × Nat) :=
  [ ("", 1), ("b", 1),
    ("kb", 1000), ("mb", 1000 ^ 2), ("gb", 1000 ^ 3), ("tb", 1000 ^ 4), ("pb", 1000 ^ 5),
    ("k", 1024), ("m", 1024 ^ 2), ("g", 1024 ^ 3), ("t", 1024 ^ 4),
    ("kib", 1024), ("mib", 1024 ^ 2), ("gib", 1024 ^ 3), ("tib", 1024 ^ 4), ("pib", 1024 ^ 5) ]

/-- A letter that a unit may contain. -/
def isUnitLetter (c : Char) : Bool := ('a' ≤ c && c ≤ 'z') || ('A' ≤ c && c ≤ 'Z')

theorem toNat_of_isUnitLetter {c : Char} (h : isUnitLetter c = true) :
    65 ≤ c.toNat ∧ c.toNat ≤ 122 := by
  simp only [isUnitLetter, Bool.or_eq_true, Bool.and_eq_true, decide_eq_true_eq, Char.le_def,
    UInt32.le_iff_toNat_le] at h
  change (97 ≤ c.toNat ∧ c.toNat ≤ 122) ∨ (65 ≤ c.toNat ∧ c.toNat ≤ 90) at h
  omega

/-- No letter is a digit or a point. -/
theorem not_digit_of_isUnitLetter {c : Char} (h : isUnitLetter c = true) :
    Text.isAsciiDigit c = false ∧ c ≠ '.' := by
  have hletter := toNat_of_isUnitLetter h
  constructor
  · rw [← Bool.not_eq_true]
    intro hd
    have hdigit := Text.toNat_of_isAsciiDigit hd
    omega
  · rintro rfl
    cases h

/-- The parts of a written size. -/
structure Parts where
  whole : List Char
  fraction : List Char
  unit : List Char
  deriving DecidableEq, Repr

/-- Takes a written size apart: digits, perhaps a point and further digits, letters. -/
def Parts.ofChars? (cs : List Char) : Option Parts :=
  let (whole, rest) := Text.takeDigits cs
  let (fraction, rest) := match rest with
    | '.' :: rest => Text.takeDigits rest
    | rest => ([], rest)
  if whole.isEmpty || !rest.all isUnitLetter then none
  else some ⟨whole, fraction, rest⟩

/-- The number in front of the unit, as near as double precision allows. -/
def Parts.number (p : Parts) : Binary64 :=
  Binary64.ofDecimal false (Text.digitsValue (p.whole ++ p.fraction)) (-(p.fraction.length : Int))

/-- The number of bytes that a text stands for, without what is left below a byte. -/
def parse (s : String) : Except Fault Int :=
  match Parts.ofChars? (Text.strip s).toList with
  | none => .error (.invalid (.sizeFormat s))
  | some p =>
    let unit := String.ofList (p.unit.map Char.toLower)
    match units.lookup unit with
    | none => .error (.invalid (.sizeUnit unit))
    | some bytes =>
      match (p.number.mul (Binary64.nearest false bytes 1)).truncate? with
      | none => .error .outOfRange
      | some n => .ok n

/-! ### Labels -/

/-- The units of labels, the largest first, and the power of two that each stands for. -/
def labelUnits : List (String × Nat) :=
  [("PiB", 50), ("TiB", 40), ("GiB", 30), ("MiB", 20), ("KiB", 10)]

/-- The unit of a label: the largest that goes into the size without remainder. -/
def labelUnit? (size : Int) : Option (String × Nat) :=
  labelUnits.find? fun u => 2 ^ u.2 ≤ size && size % 2 ^ u.2 == 0

/-- The number and the unit of a label. -/
def numberAndUnit (size : Int) : Int × String :=
  match labelUnit? size with
  | some (name, power) => (size / 2 ^ power, name)
  | none => (size, "B")

/-- How the label of a size is spelled. -/
def spelledLabel (size : Int) : String := toString (numberAndUnit size).1 ++ (numberAndUnit size).2

/-- A size as the label of a column, if its number has few enough digits to be written. -/
def label (limit : Option Nat) (size : Int) : Except Fault String :=
  if isWritableIn limit (numberAndUnit size).1 then .ok (spelledLabel size)
  else .error (.invalid .longNumber)

/-- The label of a double precision number. -/
def realLabel (x : Binary64) : String :=
  let reaches (bytes : Nat) : Bool :=
    (Quantity.real x).above (.whole bytes) || x == Binary64.nearest false bytes 1
  match labelUnits.find? fun u => reaches (2 ^ u.2) && (x.modulo (2 ^ u.2)).isZero with
  | some (name, power) => (x.floorDiv (2 ^ power)).write Binary64.messageLayout ++ name
  | none => x.write Binary64.messageLayout ++ "B"

/-- The label of any value; what is not a number has none. -/
def labelOf (limit : Option Nat) : Json → Except Fault String
  | .int n => label limit n
  | .real x => .ok (realLabel x)
  | .bool b => .ok ((Json.bool b).display ++ "B")
  | _ => .error .wrongKind

/-! ### Sizes in sentences -/

/-- The units of sentences, each 1024 of the one before; beyond the last come exabytes. -/
def sentenceUnits : List String := ["B", "KB", "MB", "GB", "TB", "PB"]

/-- A quantity in the first of the given units that keeps it below 1024; none if a number is out of
range. -/
def scaledIn? : List String → Quantity → Option String
  | [], q => (q.fixed? 2).map (· ++ " EB")
  | unit :: larger, q =>
    if q.below (.whole 1024) then (q.fixed? 2).map (· ++ " " ++ unit)
    else
      match q.div? (.real (Binary64.nearest false 1024 1)) with
      | some x => scaledIn? larger (.real x)
      | none => none

/-- A size in a sentence. -/
def scaled (q : Quantity) : Except Fault String :=
  match scaledIn? sentenceUnits q with
  | some s => .ok s
  | none => .error .outOfRange

/-- Any value as a size in a sentence. -/
def scaledOf (v : Json) : Except Fault String := v.asQuantity.bind scaled

end UsageLedger.Size
