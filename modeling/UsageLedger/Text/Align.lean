/-
UsageLedger/Text/Align.lean

Fixed-width columns.  A text wider than its column is never cut.  Widths count
characters, one for each code point.
-/
namespace UsageLedger.Text

/-- Aligned to the left: blanks follow. -/
def padEnd (width : Nat) (s : String) : String :=
  s ++ String.ofList (List.replicate (width - s.length) ' ')

/-- Aligned to the right: blanks come first. -/
def padStart (width : Nat) (s : String) : String :=
  String.ofList (List.replicate (width - s.length) ' ') ++ s

/-- The decimal digits of a number. -/
def decimal (n : Int) : String := toString n

/-- A number aligned to the right and filled with zeros; a minus sign stays in front of them. -/
def zeroFill (width : Nat) (n : Int) : String :=
  let digits := toString n.natAbs
  if n < 0 then "-" ++ String.ofList (List.replicate (width - 1 - digits.length) '0') ++ digits
  else String.ofList (List.replicate (width - digits.length) '0') ++ digits

/-- A comma before each group of three characters, counted from the end. -/
def groupThousands (reversed : List Char) : List Char :=
  match reversed with
  | a :: b :: c :: d :: rest => a :: b :: c :: ',' :: groupThousands (d :: rest)
  | short => short

/-- A number with a comma between its groups of three digits. -/
def grouped (n : Int) : String :=
  let digits := String.ofList (groupThousands (toString n.natAbs).toList.reverse).reverse
  if n < 0 then "-" ++ digits else digits

end UsageLedger.Text
