/-
UsageLedger/Json/Basic.lean

JSON values.  Whole numbers keep any size, other numbers are double precision,
and the members of an object keep their order.
-/
import UsageLedger.Catalog
import UsageLedger.Number.Quantity

namespace UsageLedger

open Number

/-- A JSON value. -/
inductive Json
  | null
  | bool (b : Bool)
  | int (n : Int)
  | real (x : Binary64)
  | text (s : String)
  | list (items : List Json)
  | object (members : List (String × Json))
  deriving Inhabited, Repr

namespace Json

mutual

/-- Structural equality. -/
def beq : Json → Json → Bool
  | null, null => true
  | bool a, bool b => a == b
  | int a, int b => a == b
  | real a, real b => a == b
  | text a, text b => a == b
  | list a, list b => beqItems a b
  | object a, object b => beqMembers a b
  | _, _ => false

/-- Equality of items. -/
def beqItems : List Json → List Json → Bool
  | [], [] => true
  | a :: as, b :: bs => beq a b && beqItems as bs
  | _, _ => false

/-- Equality of members, order included. -/
def beqMembers : List (String × Json) → List (String × Json) → Bool
  | [], [] => true
  | (k, a) :: as, (l, b) :: bs => k == l && beq a b && beqMembers as bs
  | _, _ => false

end

instance : BEq Json := ⟨beq⟩

/-- Whether a value counts as present: null, false, zero and everything empty do not. -/
def isPresent : Json → Bool
  | null => false
  | bool b => b
  | int n => n != 0
  | real x => !x.isZero
  | text s => !s.isEmpty
  | list items => !items.isEmpty
  | object members => !members.isEmpty

/-- The value itself if it counts as present, else the other one. -/
def orElse (v other : Json) : Json := if v.isPresent then v else other

/-- The text, if the value is one. -/
def text? : Json → Option String
  | text s => some s
  | _ => none

/-- The value as a quantity: a truth value counts as one or zero. -/
def quantity? : Json → Option Quantity
  | bool b => some (.whole (if b then 1 else 0))
  | int n => some (.whole n)
  | real x => some (.real x)
  | _ => none

/-- The value as a whole number: a truth value counts as one or zero. -/
def whole? : Json → Option Int
  | bool b => some (if b then 1 else 0)
  | int n => some n
  | _ => none

/-- Whether the value is a number equal to a whole number. -/
def equalsInt (v : Json) (n : Int) : Bool :=
  match v.quantity? with
  | some q => q.compare? (.whole n) == some .eq
  | none => false

end Json

end UsageLedger
