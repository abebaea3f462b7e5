/-
UsageLedger/Pattern/CharSet.lean

Sets of characters, as single characters and bracketed classes name them.  A set
may disregard case, and its classes may be confined to ASCII.
-/
import UsageLedger.Text.Blank
import UsageLedger.Text.Case
import UsageLedger.Text.Digit
import UsageLedger.Text.Word

namespace UsageLedger.Pattern

/-- A class of characters with a name of its own. -/
inductive Category
  | digit
  | space
  | word
  deriving DecidableEq, Repr

/-- Whether a category holds a character. -/
def Category.holds (ascii : Bool) : Category → Char → Bool
  | digit, c => if ascii then Text.isAsciiDigit c else Text.isDecimalDigit c
  | space, c => if ascii then Text.isAsciiBlank c else Text.isBlank c
  | word, c => if ascii then c.toNat < 128 && Text.isWord c else Text.isWord c

/-- An item of a set. -/
inductive SetItem
  /-- The code points from one to another. -/
  | range (low high : Nat)
  | category (c : Category) (negated : Bool)
  deriving DecidableEq, Repr

/-- A set of characters. -/
structure CharSet where
  items : List SetItem
  negated : Bool
  ignoreCase : Bool
  ascii : Bool
  deriving DecidableEq, Repr

/-- The form in which characters are compared when case is disregarded. -/
def folded (ascii : Bool) (c : Char) : Char := if ascii then c.toLower else Text.lowerChar c

/-- The code points that a folded character stands for. -/
def formsOf (ascii : Bool) (c : Char) : List Nat :=
  if ascii then
    if c.isLower then [c.toNat, c.toUpper.toNat] else if c.isUpper then [] else [c.toNat]
  else Text.caseForms c

/-- Whether an item holds a character, which is folded if case is disregarded. -/
def SetItem.holds (ignoreCase ascii : Bool) : SetItem → Char → Bool
  | range low high, c =>
    if ignoreCase then (formsOf ascii c).any fun n => low ≤ n && n ≤ high
    else low ≤ c.toNat && c.toNat ≤ high
  | category k negated, c => k.holds ascii c != negated

/-- Whether a set holds a character. -/
def CharSet.holds (s : CharSet) (c : Char) : Bool :=
  let c := if s.ignoreCase then folded s.ascii c else c
  (s.items.any fun i => i.holds s.ignoreCase s.ascii c) != s.negated

end UsageLedger.Pattern
