/-
UsageLedger/Text/Quoted.lean

Quoted text, as it appears in messages.  Single quotes enclose the text unless
it holds a single quote and no double quote.  Backslashes, the enclosing quote
and characters that cannot be printed are escaped.
-/
import UsageLedger.Text.Printable
import UsageLedger.Text.Hex

namespace UsageLedger.Text

/-- The escape of a character that cannot be printed, as short as its code point allows. -/
def codePointEscape (c : Char) : List Char :=
  if c.toNat ≤ 0xff then '\\' :: 'x' :: hex 2 c.toNat
  else if c.toNat ≤ 0xffff then '\\' :: 'u' :: hex 4 c.toNat
  else '\\' :: 'U' :: hex 8 c.toNat

/-- How a character appears inside quoted text. -/
def quotedChar (quote c : Char) : List Char :=
  if c == quote || c == '\\' then ['\\', c]
  else if c == '\t' then ['\\', 't']
  else if c == '\n' then ['\\', 'n']
  else if c == '\r' then ['\\', 'r']
  else if isPrintable c then [c]
  else codePointEscape c

/-- The quote that encloses a text. -/
def enclosingQuote (cs : List Char) : Char :=
  let single := Char.ofNat 39
  if cs.contains single && !cs.contains '"' then '"' else single

/-- A text in quotes. -/
def quoted (s : String) : String :=
  let quote := enclosingQuote s.toList
  String.ofList (quote :: s.toList.flatMap (quotedChar quote) ++ [quote])

end UsageLedger.Text
