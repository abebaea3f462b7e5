/-
UsageLedger/Text/Blank.lean

Blank characters and stripping.  Two sets of blanks are in use: the six blanks
of plain ASCII text, and the blanks of Unicode text, which add the four
information separators, the no-break spaces and the typographic spaces.
-/
namespace UsageLedger.Text

/-- The blanks of plain ASCII text: the space and the five layout controls. -/
def isAsciiBlank (c : Char) : Bool :=
  c.toNat == 0x20 || (0x09 ≤ c.toNat && c.toNat ≤ 0x0d)

/-- The blanks of Unicode text. -/
def isBlank (c : Char) : Bool :=
  let n := c.toNat
  isAsciiBlank c || (0x1c ≤ n && n ≤ 0x1f) || n == 0x85 || n == 0xa0 || n == 0x1680 ||
    (0x2000 ≤ n && n ≤ 0x200a) || n == 0x2028 || n == 0x2029 || n == 0x202f || n == 0x205f ||
    n == 0x3000

/-- The characters without those at either end that satisfy `p`. -/
def stripChars (p : Char → Bool) (cs : List Char) : List Char :=
  ((cs.dropWhile p).reverse.dropWhile p).reverse

/-- A text without the blanks at either end. -/
def strip (s : String) : String := String.ofList (stripChars isBlank s.toList)

/-- Whether a text holds nothing but blanks. -/
def isBlankText (s : String) : Bool := s.toList.all isBlank

end UsageLedger.Text
