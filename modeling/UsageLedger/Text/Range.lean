/-
UsageLedger/Text/Range.lean

Sets of characters given as closed ranges of code points.
-/
namespace UsageLedger.Text

/-- Whether a character lies in one of the closed ranges. -/
def inRanges (ranges : Array (Nat × Nat)) (c : Char) : Bool :=
  ranges.any fun r => r.1 ≤ c.toNat && c.toNat ≤ r.2

end UsageLedger.Text
