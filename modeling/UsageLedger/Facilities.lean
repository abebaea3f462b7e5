/-
UsageLedger/Facilities.lean

What the program gets from what it runs on: room for calls within calls, and the names
of characters.  Nested things are gone through by calls within calls; what needs more
room than there is is not gone through at all.  How much room there is does not depend
on the input.
-/
import UsageLedger.Text.CharName

namespace UsageLedger

/-- What the program runs on. -/
structure Facilities where
  /-- How many levels a value may have that is shown in a message. -/
  showing : Nat
  /-- How many calls deep the parts of a pattern may be. -/
  nesting : Nat
  /-- The character with a name. -/
  named? : String → Option Char

/-- A stack of a thousand calls, some of them in use. -/
def Facilities.standard : Facilities := ⟨980, 960, Text.named?⟩

end UsageLedger
