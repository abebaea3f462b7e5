/-
UsageLedger/Url/Percent.lean

Percent coding.  Encoding writes every byte beyond letters, digits and four
marks as a percent sign and two digits.  Decoding leaves alone what is no
complete code; bytes that are not well formed become the replacement character.
-/
import UsageLedger.Text.Hex
import UsageLedger.Text.Utf8

namespace UsageLedger.Url

/-- The bytes that stand for themselves. -/
def isUnreserved (b : UInt8) : Bool :=
  let c := Char.ofNat b.toNat
  b < 0x80 && (c.isAlphanum || c == '_' || c == '.' || c == '-' || c == '~')

/-- An upper-case hexadecimal digit. -/
def upperHexDigit (n : Nat) : Char := (Text.hexDigit n).toUpper

/-- How a byte is written. -/
def encodeByte (b : UInt8) : List Char :=
  if isUnreserved b then [Char.ofNat b.toNat]
  else ['%', upperHexDigit (b.toNat / 16), upperHexDigit (b.toNat % 16)]

/-- A text with everything else than unreserved characters encoded. -/
def encode (s : String) : String := String.ofList ((Text.utf8Bytes s).flatMap encodeByte)

/-- The bytes that ASCII characters stand for. -/
def decodeBytes : List Char → List UInt8
  | '%' :: a :: b :: rest =>
    match Text.ofHex? [a, b] with
    | some n => n.toUInt8 :: decodeBytes rest
    | none => '%'.toNat.toUInt8 :: decodeBytes (a :: b :: rest)
  | c :: rest => c.toNat.toUInt8 :: decodeBytes rest
  | [] => []

/-- Whether a character is one of ASCII. -/
def isAscii (c : Char) : Bool := c.toNat < 0x80

/-- Decodes each run of ASCII characters by itself; the run at hand is kept in reverse. -/
def decodeRuns (run : List Char) : List Char → List Char
  | [] => Text.utf8Lossy (decodeBytes run.reverse)
  | c :: rest =>
    if isAscii c then decodeRuns (c :: run) rest
    else Text.utf8Lossy (decodeBytes run.reverse) ++ c :: decodeRuns [] rest

/-- A text with its percent codes decoded. -/
def decodeChars (cs : List Char) : List Char := decodeRuns [] cs

/-- A part of a query decoded, where a plus sign stands for a blank. -/
def decodeQuery (cs : List Char) : List Char :=
  decodeChars (cs.map fun c => if c == '+' then ' ' else c)

end UsageLedger.Url
