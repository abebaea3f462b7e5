/-
UsageLedger/Json/Lookup.lean

Taking values apart where data may have any shape.  Each operation names the
fault that a value of another shape causes.
-/
import UsageLedger.Fault
import UsageLedger.Json.Basic

namespace UsageLedger.Json

/-- The members of an object. -/
def members : Json → Except Fault (Catalog String Json)
  | object ms => .ok ms
  | _ => .error .noMember

/-- A member of an object, or another value if the object lacks it. -/
def memberOr (v : Json) (name : String) (other : Json) : Except Fault Json :=
  v.members.map fun ms => (Catalog.find? name ms).getD other

/-- A member of an object; null if the object lacks it. -/
def member (v : Json) (name : String) : Except Fault Json := v.memberOr name null

/-- The items of a value gone through one by one: those of a list, the characters of a text, the
names of the members of an object. -/
def items : Json → Except Fault (List Json)
  | list vs => .ok vs
  | text s => .ok (s.toList.map fun c => text (String.singleton c))
  | object ms => .ok (ms.map fun m => text m.1)
  | _ => .error .wrongKind

/-- A text. -/
def asText : Json → Except Fault String
  | text s => .ok s
  | _ => .error .noMember

/-- A number. -/
def asQuantity (v : Json) : Except Fault Number.Quantity :=
  match v.quantity? with
  | some q => .ok q
  | none => .error .wrongKind

end UsageLedger.Json
