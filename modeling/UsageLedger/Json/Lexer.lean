/-
UsageLedger/Json/Lexer.lean

The tokens of JSON text.  The grammar is a lenient one: numbers may have leading
zeros, a minus sign alone is zero, digits may be missing on one side of the
point after a minus sign or a digit, the names of the infinite numbers and of
the one that is not a number are read, and strings may hold raw control
characters other than NUL.
-/
import UsageLedger.Json.Basic
import UsageLedger.Number.Numeral
import UsageLedger.Text.Hex

namespace UsageLedger

open Number

namespace Json

/-- A token: a bracket, a separator, or a value that is neither list nor object. -/
inductive Token
  | openList
  | closeList
  | openObject
  | closeObject
  | colon
  | comma
  | scalar (v : Json)
  deriving Inhabited

/-- What a reader refuses beyond the grammar. -/
structure Limits where
  /-- The greatest depth of nesting, if there is one. -/
  depth : Option Nat
  /-- The most digits of a whole number, if there is a limit. -/
  digits : Option Nat

/-- The limits for files and answers of services. -/
def Limits.standard : Limits := ⟨some 1024, some maxDigits⟩

/-- No limits. -/
def Limits.none : Limits := ⟨Option.none, Option.none⟩

/-- The characters between tokens. -/
def isSpace (c : Char) : Bool := c == ' ' || c == '\t' || c == '\n' || c == '\r'

/-- A character after a backslash that stands for one character by itself. -/
def simpleEscape? (c : Char) : Option Char :=
  if c == '"' || c == '\\' || c == '/' then some c
  else if c == 'b' then some (Char.ofNat 8)
  else if c == 'f' then some (Char.ofNat 12)
  else if c == 'n' then some '\n'
  else if c == 'r' then some '\r'
  else if c == 't' then some '\t'
  else none

/-- The high half of a surrogate pair. -/
def isHighSurrogate (n : Nat) : Bool := 0xd800 ≤ n && n ≤ 0xdbff

/-- The low half of a surrogate pair. -/
def isLowSurrogate (n : Nat) : Bool := 0xdc00 ≤ n && n ≤ 0xdfff

/-- A character by its number; half a surrogate pair becomes the replacement character. -/
def codePoint (n : Nat) : Char :=
  if isHighSurrogate n || isLowSurrogate n then Char.ofNat 0xfffd else Char.ofNat n

/-- The rest of a string after its opening quote: the characters it holds and what follows the
closing quote. -/
def string? : List Char → Option (List Char × List Char)
  | [] => none
  | '"' :: rest => some ([], rest)
  | '\\' :: 'u' :: a :: b :: c :: d :: '\\' :: 'u' :: e :: f :: g :: h :: rest =>
    match Text.ofHex? [a, b, c, d], Text.ofHex? [e, f, g, h] with
    | some high, some low =>
      if isHighSurrogate high && isLowSurrogate low then
        (string? rest).map fun r =>
          (Char.ofNat (0x10000 + (high - 0xd800) * 0x400 + (low - 0xdc00)) :: r.1, r.2)
      else
        (string? ('\\' :: 'u' :: e :: f :: g :: h :: rest)).map fun r => (codePoint high :: r.1, r.2)
    | _, _ => none
  | '\\' :: 'u' :: a :: b :: c :: d :: rest => do
    let n ← Text.ofHex? [a, b, c, d]
    let r ← string? rest
    return (codePoint n :: r.1, r.2)
  | '\\' :: c :: rest => do
    let e ← simpleEscape? c
    let r ← string? rest
    return (e :: r.1, r.2)
  | c :: rest =>
    if c == '\\' || c.toNat == 0 then none
    else (string? rest).map fun r => (c :: r.1, r.2)

/-- Whole numbers of this size and above are subject to the limit on digits. -/
def wideInteger : Nat := 2 ^ 63

/-- A number at the front, sign and digits first. -/
def number? (limits : Limits) (cs : List Char) : Option (Json × List Char) :=
  let (negative, body) := match cs with
    | '-' :: rest => (true, rest)
    | _ => (false, cs)
  let (whole, afterWhole) := Text.takeDigits body
  let (fraction, afterFraction) := match afterWhole with
    | '.' :: rest => let (f, r) := Text.takeDigits rest; (some f, r)
    | _ => (none, afterWhole)
  let (power, afterPower) := match afterFraction with
    | c :: rest =>
      if c == 'e' || c == 'E' then
        let (negative, rest) := match rest with
          | '-' :: rest => (true, rest)
          | '+' :: rest => (false, rest)
          | _ => (false, rest)
        let (ds, rest) := Text.takeDigits rest
        (some (negative, ds), rest)
      else (none, afterFraction)
    | [] => (none, afterFraction)
  match fraction, power with
  | none, none =>
    let n := Text.digitsValue whole
    let tooLong := match limits.digits with
      | some most => decide (wideInteger ≤ n) && decide (most < whole.length)
      | none => false
    if tooLong then none else some (int (if negative then -(n : Int) else n), afterWhole)
  | _, _ =>
    let fraction := fraction.getD []
    let (powerNegative, powerDigits) := power.getD (false, ['0'])
    if (whole.isEmpty && fraction.isEmpty) || powerDigits.isEmpty then none
    else
      let size := Text.digitsValue powerDigits
      let exponent : Int := (if powerNegative then -(size : Int) else size) - fraction.length
      some (real (Binary64.ofDecimal negative (Text.digitsValue (whole ++ fraction)) exponent), afterPower)

/-- Drops a given word from the front. -/
def dropWord? (word : List Char) (cs : List Char) : Option (List Char) :=
  if word.isPrefixOf cs then some (cs.drop word.length) else none

/-- The words that are values. -/
def words : List (List Char × Json) :=
  [ ("true".toList, bool true), ("false".toList, bool false), ("null".toList, null),
    ("NaN".toList, real .nan), ("Infinity".toList, real (.infinite false)),
    ("-Infinity".toList, real (.infinite true)) ]

/-- A word at the front and what follows it. -/
def word? (cs : List Char) : Option (Json × List Char) :=
  words.findSome? fun w => (dropWord? w.1 cs).map fun rest => (w.2, rest)

/-- The brackets and separators. -/
def mark? (c : Char) : Option Token :=
  if c == '[' then some .openList
  else if c == ']' then some .closeList
  else if c.toNat == 0x7b then some .openObject
  else if c.toNat == 0x7d then some .closeObject
  else if c == ':' then some .colon
  else if c == ',' then some .comma
  else none

/-- The token at the front of text that does not begin with a space, and what follows it. -/
def token? (limits : Limits) (c : Char) (rest : List Char) : Option (Token × List Char) :=
  match mark? c with
  | some t => some (t, rest)
  | none =>
    if c == '"' then (string? rest).map fun r => (.scalar (text (String.ofList r.1)), r.2)
    else
      match word? (c :: rest) with
      | some r => some (.scalar r.1, r.2)
      | none =>
        if Text.isAsciiDigit c || c == '-' then (number? limits (c :: rest)).map fun r => (.scalar r.1, r.2)
        else none

/-- All tokens of a text.  The first argument bounds the number of steps; one more than the number of
characters is always enough, for every step takes a character. -/
def tokens? (limits : Limits) : Nat → List Char → Option (List Token)
  | 0, _ => none
  | _, [] => some []
  | steps + 1, c :: rest =>
    if isSpace c then tokens? limits steps rest
    else
      match token? limits c rest with
      | none => none
      | some (t, rest) => (tokens? limits steps rest).map (t :: ·)

end Json

end UsageLedger
