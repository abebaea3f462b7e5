/-
UsageLedger/Json/Printer.lean

JSON text.  Characters beyond ASCII are written as escapes, so the text is plain
ASCII (the delete character apart).  Two forms are in use: indented files, where
the solidus is escaped too, and one-line text with the names in order.
-/
import UsageLedger.Json.Basic
import UsageLedger.Text.Hex

namespace UsageLedger

open Number

namespace Json

/-- A code point above the basic plane as an escaped surrogate pair, any other as one escape. -/
def unicodeEscape (c : Char) : List Char :=
  let unit (n : Nat) : List Char := '\\' :: 'u' :: Text.hex 4 n
  if c.toNat < 0x10000 then unit c.toNat
  else
    let n := c.toNat - 0x10000
    unit (0xd800 + n / 0x400) ++ unit (0xdc00 + n % 0x400)

/-- How a character appears inside a string. -/
def escapedChar (escapeSolidus : Bool) (c : Char) : List Char :=
  if c == '"' || c == '\\' then ['\\', c]
  else if c == '/' && escapeSolidus then ['\\', c]
  else if c == '\n' then ['\\', 'n']
  else if c == '\r' then ['\\', 'r']
  else if c == '\t' then ['\\', 't']
  else if c.toNat == 8 then ['\\', 'b']
  else if c.toNat == 12 then ['\\', 'f']
  else if c.toNat < 0x20 || 0x7f < c.toNat then unicodeEscape c
  else [c]

/-- A string in double quotes. -/
def string (escapeSolidus : Bool) (s : String) : String :=
  String.ofList ('"' :: s.toList.flatMap (escapedChar escapeSolidus) ++ ['"'])

/-- A line break and the indentation of a depth. -/
def newline (depth : Nat) : String :=
  String.ofList ('\n' :: List.replicate (2 * depth) ' ')

/-- Opening and closing brace. -/
def openBrace : String := "\x7b"
/-- The closing brace. -/
def closeBrace : String := "\x7d"

/-- A value that is neither a list nor an object with something in it. -/
def scalarText (escapeSolidus : Bool) : Json → Option String
  | null => some "null"
  | bool b => some (if b then "true" else "false")
  | int n => some (toString n)
  | real x => some (x.write Binary64.dataLayout)
  | text s => some (string escapeSolidus s)
  | list _ => none
  | object _ => none

mutual

/-- A value in a file, indented by two blanks a level; what is empty stays on one line. -/
def indentedAt (depth : Nat) : Json → String
  | list [] => "[]"
  | object [] => openBrace ++ closeBrace
  | list (v :: vs) =>
    "[" ++ newline (depth + 1) ++ indentedAt (depth + 1) v ++ indentedItems (depth + 1) vs ++
      newline depth ++ "]"
  | object ((k, v) :: rest) =>
    openBrace ++ newline (depth + 1) ++ string true k ++ ": " ++ indentedAt (depth + 1) v ++
      indentedMembers (depth + 1) rest ++ newline depth ++ closeBrace
  | v => (scalarText true v).getD ""

/-- The items after the first. -/
def indentedItems (depth : Nat) : List Json → String
  | [] => ""
  | v :: vs => "," ++ newline depth ++ indentedAt depth v ++ indentedItems depth vs

/-- The members after the first. -/
def indentedMembers (depth : Nat) : List (String × Json) → String
  | [] => ""
  | (k, v) :: rest =>
    "," ++ newline depth ++ string true k ++ ": " ++ indentedAt depth v ++
      indentedMembers depth rest

end

/-- A value as the text of a file. -/
def indented (v : Json) : String := indentedAt 0 v

mutual

/-- A value on one line, the members of objects in order of their names. -/
def line : Json → String
  | list items => "[" ++ ", ".intercalate (lineItems items) ++ "]"
  | object members =>
    let entries := (lineMembers members).mergeSort fun a b => !(b.1 < a.1)
    openBrace ++ ", ".intercalate (entries.map (·.2)) ++ closeBrace
  | v => (scalarText false v).getD ""

/-- Items on one line each. -/
def lineItems : List Json → List String
  | [] => []
  | v :: vs => line v :: lineItems vs

/-- Members with their names to order them by. -/
def lineMembers : List (String × Json) → List (String × String)
  | [] => []
  | (k, v) :: rest => (k, string false k ++ ": " ++ line v) :: lineMembers rest

end

end Json

end UsageLedger
