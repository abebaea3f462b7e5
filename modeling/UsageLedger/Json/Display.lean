/-
UsageLedger/Json/Display.lean

Values inside messages.  A text stands as it is; inside lists and objects texts
are quoted.  The missing value and the truth values are words.

A value is shown by going through its levels, for which there may be too little
room.  A text is not gone through.
-/
import UsageLedger.Fault
import UsageLedger.Json.Printer
import UsageLedger.Text.Quoted

namespace UsageLedger

open Number

namespace Json

mutual

/-- A value as part of another one: texts are quoted. -/
def quoted : Json → String
  | null => "None"
  | bool b => if b then "True" else "False"
  | int n => toString n
  | real x => x.write Binary64.messageLayout
  | text s => Text.quoted s
  | list items => "[" ++ ", ".intercalate (quotedItems items) ++ "]"
  | object members => openBrace ++ ", ".intercalate (quotedMembers members) ++ closeBrace

/-- The items of a list, each as part of it. -/
def quotedItems : List Json → List String
  | [] => []
  | v :: vs => quoted v :: quotedItems vs

/-- The members of an object, each as part of it. -/
def quotedMembers : List (String × Json) → List String
  | [] => []
  | (k, v) :: rest => (Text.quoted k ++ ": " ++ quoted v) :: quotedMembers rest

end

/-- A value in a message. -/
def display : Json → String
  | text s => s
  | v => v.quoted

mutual

/-- The number of levels of a value, one for what is neither list nor object. -/
def levels : Json → Nat
  | list items => 1 + levelsOfItems items
  | object members => 1 + levelsOfMembers members
  | _ => 1

/-- The greatest number of levels of some items. -/
def levelsOfItems : List Json → Nat
  | [] => 0
  | v :: vs => max (levels v) (levelsOfItems vs)

/-- The greatest number of levels of some members. -/
def levelsOfMembers : List (String × Json) → Nat
  | [] => 0
  | (_, v) :: rest => max (levels v) (levelsOfMembers rest)

end

/-- Whether a value has more levels than there is room for. -/
def exceeds (room : Nat) : Json → Bool
  | text _ => false
  | v => room < v.levels

/-- A value in a message, as far as there is room to go through it. -/
def displayWithin (room : Nat) (v : Json) : Except Fault String :=
  if v.exceeds room then .error .tooDeep else .ok v.display

end Json

end UsageLedger
