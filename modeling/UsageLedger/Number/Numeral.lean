/-
UsageLedger/Number/Numeral.lean

Integer numerals.  A numeral is an optional sign and decimal digits of any
script, with single underscores between digits and blanks around the whole.  In
plain ASCII text only the six ASCII blanks count, and the same holds for ASCII
characters of other text; beyond ASCII every blank does.  A numeral of more than
4300 digits is refused.
-/
import UsageLedger.Text.Blank
import UsageLedger.Text.Digit

namespace UsageLedger.Number

/-- The most digits that a whole number is read from or written with. -/
def maxDigits : Nat := 4300

/-- Whether a whole number has few enough digits to be written, where the number of digits may be
limited. -/
def isWritableIn (limit : Option Nat) (n : Int) : Bool := limit.all fun most => n.natAbs < 10 ^ most

/-- Why a text is no numeral. -/
inductive NumeralError
  | malformed
  | tooLong (digits : Nat)
  deriving DecidableEq, Repr

/-- The characters that may surround a numeral. -/
def isNumeralBlank (c : Char) : Bool :=
  Text.isAsciiBlank c || (127 ≤ c.toNat && Text.isBlank c)

/-- The digit values of a digit sequence with single underscores between digits. -/
def digitValues? : List Char → Option (List Nat)
  | [] => none
  | [c] => (Text.digitValue? c).map ([·])
  | c :: '_' :: rest => do return (← Text.digitValue? c) :: (← digitValues? rest)
  | c :: rest => do return (← Text.digitValue? c) :: (← digitValues? rest)

/-- The number that digit values spell. -/
def ofDigitValues (values : List Nat) : Nat := values.foldl (fun n d => n * 10 + d) 0

/-- The integer that a numeral stands for. -/
def integer? (s : String) : Except NumeralError Int :=
  let cs := Text.stripChars isNumeralBlank s.toList
  let (negative, body) := match cs with
    | '-' :: rest => (true, rest)
    | '+' :: rest => (false, rest)
    | cs => (false, cs)
  match digitValues? body with
  | none => .error .malformed
  | some values =>
    if values.length > maxDigits then .error (.tooLong values.length)
    else
      let n : Int := ofDigitValues values
      .ok (if negative then -n else n)

end UsageLedger.Number
