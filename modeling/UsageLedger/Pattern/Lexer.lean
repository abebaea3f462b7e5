/-
UsageLedger/Pattern/Lexer.lean

The small pieces of written patterns: escapes, bracketed sets, numbers of
repetitions, group names and flags.  Each reader takes its piece off the front
and returns what follows.
-/
import UsageLedger.Number.Numeral
import UsageLedger.Pattern.Basic
import UsageLedger.Text.Hex
import UsageLedger.Text.Identifier

namespace UsageLedger.Pattern

/-- Why a pattern cannot be read. -/
inductive ReadError
  | malformed
  /-- A number of repetitions that no repetition can have. -/
  | tooMany
  /-- A number of repetitions with too many digits. -/
  | longNumeral (digits : Nat)
  /-- Flags for two character sets at once. -/
  | flagClash
  /-- Parts are nested too deeply. -/
  | tooDeep
  deriving DecidableEq, Repr

/-- Reading may fail. -/
abbrev Read := Except ReadError

/-- The failure that most faults amount to. -/
def malformed {α : Type} : Read α := .error .malformed

/-! ### Names -/

/-- The text up to a mark, which may not be empty, and what follows the mark. -/
def nameUntil (mark : Char) (cs : List Char) : Read (List Char × List Char) :=
  match cs.takeWhile (· != mark), cs.dropWhile (· != mark) with
  | name, _ :: rest => if name.isEmpty then malformed else .ok (name, rest)
  | _, [] => malformed

/-! ### Escapes -/

/-- Exactly so many hexadecimal digits. -/
def hexDigits (count : Nat) (cs : List Char) : Read (Nat × List Char) :=
  if cs.length < count then malformed
  else
    match Text.ofHex? (cs.take count) with
    | some n => .ok (n, cs.drop count)
    | none => malformed

/-- An octal digit. -/
def isOctal (c : Char) : Bool := '0' ≤ c && c ≤ '7'

/-- The number that octal digits spell. -/
def octalValue (cs : List Char) : Nat := cs.foldl (fun n c => n * 8 + (c.toNat - 48)) 0

/-- The octal digits at the front, at most so many, and what follows them. -/
def takeOctal (most : Nat) (cs : List Char) : List Char × List Char :=
  let digits := (cs.take most).takeWhile isOctal
  (digits, cs.drop digits.length)

/-- The code point of a letter that stands for a control character. -/
def controlEscape? (c : Char) : Option Nat :=
  [('a', 7), ('f', 12), ('n', 10), ('r', 13), ('t', 9), ('v', 11)].lookup c

/-- The category that a letter stands for; capitals stand for the complements. -/
def categoryEscape? (c : Char) : Option SetItem :=
  [ ('d', SetItem.category .digit false), ('D', .category .digit true),
    ('s', .category .space false), ('S', .category .space true),
    ('w', .category .word false), ('W', .category .word true) ].lookup c

/-- A letter of ASCII. -/
def isAsciiLetter (c : Char) : Bool := c.isAlpha

/-- The character with a name in braces. -/
def namedEscape (named? : String → Option Char) (cs : List Char) : Read (Nat × List Char) :=
  match cs with
  | [] => malformed
  | c :: rest => do
    if c.toNat != 0x7b then malformed
    let (name, rest) ← nameUntil (Char.ofNat 0x7d) rest
    match named? (String.ofList name) with
    | some c => return (c.toNat, rest)
    | none => malformed

/-- The code point that an escape outside and inside of sets alike stands for, after its letter. -/
def codeEscape (named? : String → Option Char) (c : Char) (rest : List Char) : Read (Nat × List Char) :=
  match controlEscape? c with
  | some n => .ok (n, rest)
  | none =>
    if c == 'N' then namedEscape named? rest
    else if c == 'x' then hexDigits 2 rest
    else if c == 'u' then hexDigits 4 rest
    else if c == 'U' then do
      let (n, rest) ← hexDigits 8 rest
      if n ≤ 0x10ffff then return (n, rest) else malformed
    else if isAsciiLetter c then malformed
    else .ok (c.toNat, rest)

/-! ### Sets -/

/-- A single code point as an item. -/
def SetItem.single (n : Nat) : SetItem := range n n

/-- An escape inside a set, after the backslash. -/
def setEscape (named? : String → Option Char) (c : Char) (rest : List Char) : Read (SetItem × List Char) :=
  match categoryEscape? c with
  | some item => .ok (item, rest)
  | none =>
    if c == 'b' then .ok (.single 8, rest)
    else if isOctal c then
      let (digits, rest) := takeOctal 2 rest
      let n := octalValue (c :: digits)
      if n ≤ 255 then .ok (.single n, rest) else malformed
    else if Text.isAsciiDigit c then malformed
    else (codeEscape named? c rest).map fun (n, rest) => (.single n, rest)

/-- One character or category of a set. -/
def setAtom (named? : String → Option Char) (c : Char) (rest : List Char) : Read (SetItem × List Char) :=
  if c == '\\' then
    match rest with
    | [] => malformed
    | e :: rest => setEscape named? e rest
  else .ok (.single c.toNat, rest)

/-- The items of a set up to its closing bracket, which does not close an empty one.  The number
bounds the steps. -/
def setItems (named? : String → Option Char) : Nat → List SetItem → List Char → Read (List SetItem × List Char)
  | 0, _, _ => malformed
  | _, _, [] => malformed
  | steps + 1, items, c :: rest =>
    if c == ']' && !items.isEmpty then .ok (items.reverse, rest)
    else do
      let (low, rest) ← setAtom named? c rest
      match rest with
      | '-' :: ']' :: rest => return ((.single '-'.toNat :: low :: items).reverse, rest)
      | ['-'] => malformed
      | '-' :: d :: rest =>
        let (high, rest) ← setAtom named? d rest
        match low, high with
        | .range l _, .range h _ =>
          if h < l then malformed else setItems named? steps (.range l h :: items) rest
        | _, _ => malformed
      | rest => setItems named? steps (low :: items) rest

/-- A set after its opening bracket: its items, whether it is a complement, and what follows. -/
def bracketed (named? : String → Option Char) (cs : List Char) : Read (List SetItem × Bool × List Char) :=
  let (negated, body) := match cs with
    | '^' :: rest => (true, rest)
    | cs => (false, cs)
  (setItems named? (body.length + 1) [] body).map fun (items, rest) => (items, negated, rest)

/-! ### Repetitions -/

/-- No repetition has this number of rounds or more. -/
def roundLimit : Nat := 2 ^ 32 - 1

/-- A number of rounds; a missing one gives none. -/
def rounds? (digits : List Char) : Read (Option Nat) :=
  if digits.isEmpty then .ok none
  else if Number.maxDigits < digits.length then .error (.longNumeral digits.length)
  else
    let n := Text.digitsValue digits
    if roundLimit ≤ n then .error .tooMany else .ok (some n)

/-- The numbers of rounds after an opening brace; none if the brace stands for itself.  A backslash
with nothing behind it goes before what is wrong with the numbers. -/
def braces? (cs : List Char) : Read (Option (Nat × Option Nat × List Char)) :=
  let (low, rest) := Text.takeDigits cs
  let (high, closing) := match rest with
    | ',' :: rest => Text.takeDigits rest
    | rest => (low, rest)
  match closing with
  | c :: after =>
    if c.toNat != 0x7d || (low.isEmpty && rest.head? == some c) then .ok none
    else if after == ['\\'] then malformed
    else do
      let least := (← rounds? low).getD 0
      let most ← rounds? high
      if most.any (· < least) then malformed
      return some (least, most, after)
  | [] => .ok none

/-- The mood of a repetition: a mark after it may make it lazy or possessive. -/
def moodMark : List Char → Mood × List Char
  | '?' :: rest => (.lazy, rest)
  | '+' :: rest => (.possessive, rest)
  | rest => (.greedy, rest)

/-! ### Comments -/

/-- What follows the next occurrence of a mark that is not escaped; none if there is none. -/
def skipPast (mark : Char) : List Char → Read (Option (List Char))
  | [] => .ok none
  | ['\\'] => malformed
  | '\\' :: _ :: rest => skipPast mark rest
  | c :: rest => if c == mark then .ok (some rest) else skipPast mark rest

/-! ### Flags -/

/-- The switches that hold in a part of a pattern. -/
structure Flags where
  ignoreCase : Bool
  multiline : Bool
  dotAll : Bool
  verbose : Bool
  ascii : Bool
  deriving DecidableEq, Repr

/-- All switches off. -/
def Flags.none : Flags := ⟨false, false, false, false, false⟩

/-- The letters that stand for flags. -/
def flagLetters : List Char := ['i', 'L', 'm', 's', 'x', 'a', 't', 'u']

/-- Turns on and off what letters stand for. -/
def Flags.change (f : Flags) (on off : List Char) : Flags where
  ignoreCase := (f.ignoreCase || on.contains 'i') && !off.contains 'i'
  multiline := (f.multiline || on.contains 'm') && !off.contains 'm'
  dotAll := (f.dotAll || on.contains 's') && !off.contains 's'
  verbose := (f.verbose || on.contains 'x') && !off.contains 'x'
  ascii := (f.ascii || on.contains 'a') && !on.contains 'u'

/-- Flag letters to turn on, up to a mark that ends them. -/
def flagsOn (on : List Char) : List Char → Read (List Char × Char × List Char)
  | [] => malformed
  | c :: rest =>
    if c == ')' || c == '-' || c == ':' then .ok (on, c, rest)
    else if !flagLetters.contains c || c == 'L' then malformed
    else if (c == 'a' && on.contains 'u') || (c == 'u' && on.contains 'a') then malformed
    else flagsOn (c :: on) rest

/-- Flag letters to turn off, up to a colon; there is at least one. -/
def flagsOff (off : List Char) : List Char → Read (List Char × List Char)
  | [] => malformed
  | c :: rest =>
    if c == ':' && !off.isEmpty then .ok (off, rest)
    else if !flagLetters.contains c || ['a', 'u', 'L', 't'].contains c then malformed
    else flagsOff (c :: off) rest

end UsageLedger.Pattern
