/-
UsageLedger/Pattern/Reader.lean

Reading written patterns.  What is open is a stack of groups, innermost first;
each step takes a piece off the text and changes the innermost group.  A group
may be referred to once it is closed; what stands behind an assertion about
preceding text must have a fixed width.  Open parts cost room, and so do the parts
of the finished pattern, which is gone through once more.
-/
import UsageLedger.Catalog
import UsageLedger.Fault
import UsageLedger.Pattern.Lexer
import UsageLedger.Facilities

namespace UsageLedger.Pattern

/-- What kind of part a parenthesis opened. -/
inductive Opening
  /-- The whole pattern, which no parenthesis opens. -/
  | whole
  | plain
  | remembered (number : Nat)
  | atomic
  | ahead (negated : Bool)
  /-- An assertion about preceding text; the outermost one confines references. -/
  | behind (negated outermost : Bool)
  | given (number : Nat)
  deriving DecidableEq, Repr

/-- How many calls deeper an open part is than what it stands in. -/
def Opening.calls : Opening → Nat
  | given _ => 1
  | _ => 2

/-- A part that is still open. -/
structure OpenPart where
  opening : Opening
  flags : Flags
  /-- The finished alternatives, last first. -/
  done : List Pattern
  /-- The pieces of the current alternative, last first. -/
  pieces : List Pattern

/-- A part that was just opened. -/
def OpenPart.start (opening : Opening) (flags : Flags) : OpenPart := ⟨opening, flags, [], []⟩

/-- All alternatives of a part in order. -/
def OpenPart.alternatives (o : OpenPart) : List Pattern :=
  (sequence o.pieces.reverse :: o.done).reverse

/-- A reader between two pieces. -/
structure Reader where
  innermost : OpenPart
  outer : List OpenPart
  /-- How many remembered groups were opened. -/
  opened : Nat
  names : Catalog String Nat
  /-- The widths of the groups that are closed. -/
  closed : Catalog Nat Width
  /-- Inside assertions about preceding text, the first group that may not be referred to. -/
  confined : Option Nat
  /-- The numbers that conditions ask for. -/
  asked : List Nat
  /-- Whether some assertion about preceding text has no fixed width. -/
  unfixed : Bool
  /-- The flag letters that hold for the whole pattern. -/
  global : List Char

namespace Reader

/-- Before the first piece. -/
def start : Reader :=
  ⟨.start .whole .none, [], 0, [], [], none, [], false, []⟩

/-- The flags that hold at this place. -/
def flags (r : Reader) : Flags := r.innermost.flags

/-- Adds a piece. -/
def add (r : Reader) (p : Pattern) : Reader :=
  { r with innermost := { r.innermost with pieces := p :: r.innermost.pieces } }

/-- Opens a part. -/
def push (r : Reader) (opening : Opening) (flags : Flags) : Reader :=
  { r with innermost := .start opening flags, outer := r.innermost :: r.outer }

/-- A set of characters under the flags that hold. -/
def setPiece (r : Reader) (items : List SetItem) (negated : Bool) : Pattern :=
  .char ⟨items, negated, r.flags.ignoreCase, r.flags.ascii⟩

/-- A single code point under the flags that hold. -/
def literal (r : Reader) (n : Nat) : Pattern := r.setPiece [.single n] false

/-- Checks that a group may be referred to here. -/
def checkConfined (r : Reader) (number : Nat) : Read Unit :=
  match r.confined with
  | some first => if r.closed.has number && number < first then .ok () else malformed
  | none => .ok ()

/-- A reference to a group. -/
def referTo (r : Reader) (number : Nat) : Read Pattern := do
  if !r.closed.has number then malformed
  r.checkConfined number
  return .again number r.flags.ignoreCase r.flags.ascii

/-- An escape outside of sets that begins with a digit other than zero: a reference, or with three
octal digits a code point. -/
def digitEscape (r : Reader) (c : Char) (rest : List Char) : Read (Pattern × List Char) :=
  match rest with
  | d :: e :: after =>
    if isOctal c && isOctal d && isOctal e then
      let n := octalValue [c, d, e]
      if n ≤ 255 then .ok (r.literal n, after) else malformed
    else if Text.isAsciiDigit d then
      (r.referTo (Text.digitsValue [c, d])).map (·, e :: after)
    else (r.referTo (Text.digitsValue [c])).map (·, rest)
  | [d] =>
    if Text.isAsciiDigit d then (r.referTo (Text.digitsValue [c, d])).map (·, [])
    else (r.referTo (Text.digitsValue [c])).map (·, rest)
  | [] => (r.referTo (Text.digitsValue [c])).map (·, [])

/-- An escape outside of sets, after the backslash. -/
def escape (named? : String → Option Char) (r : Reader) (c : Char) (rest : List Char) : Read (Pattern × List Char) :=
  match categoryEscape? c with
  | some item => .ok (r.setPiece [item] false, rest)
  | none =>
    if c == 'A' then .ok (.anchor .textStart, rest)
    else if c == 'Z' then .ok (.anchor .textEnd, rest)
    else if c == 'b' then .ok (.anchor (.boundary r.flags.ascii), rest)
    else if c == 'B' then .ok (.anchor (.notBoundary r.flags.ascii), rest)
    else if c == '0' then
      let (digits, rest) := takeOctal 2 rest
      .ok (r.literal (octalValue digits), rest)
    else if Text.isAsciiDigit c then r.digitEscape c rest
    else (codeEscape named? c rest).map fun (n, rest) => (r.literal n, rest)

/-- Repeats the last piece.  There must be one, and it may be neither an anchor nor a repetition. -/
def repeatLast (r : Reader) (least : Nat) (most : Option Nat) (rest : List Char) :
    Read (Reader × List Char) :=
  match r.innermost.pieces with
  | [] => malformed
  | .anchor _ :: _ => malformed
  | .loop .. :: _ => malformed
  | p :: before =>
    let (mood, rest) := moodMark rest
    .ok ({ r with innermost := { r.innermost with pieces := .loop least most mood p :: before } }, rest)

/-- Opens a remembered group, perhaps with a name of its own. -/
def openRemembered (r : Reader) (name : Option String) : Read Reader :=
  let number := r.opened + 1
  match name with
  | some s =>
    if r.names.has s then malformed
    else
      .ok ({ r with opened := number, names := r.names.put s number }.push (.remembered number) r.flags)
  | none => .ok ({ r with opened := number }.push (.remembered number) r.flags)

/-- Opens an assertion about preceding text. -/
def openBehind (r : Reader) (negated : Bool) : Reader :=
  let outermost := r.confined.isNone
  let confined := r.confined.getD (r.opened + 1)
  { r with confined := some confined }.push (.behind negated outermost) r.flags

/-- Opens a part that depends on a group, given by name or number. -/
def openGiven (r : Reader) (name : List Char) (rest : List Char) : Read (Reader × List Char) := do
  if Text.isIdentifier name then
    match r.names.find? (String.ofList name) with
    | none => malformed
    | some number =>
      r.checkConfined number
      return (r.push (.given number) r.flags, rest)
  else
    match Number.integer? (String.ofList name) with
    | .error _ => malformed
    | .ok n =>
      if n ≤ 0 then malformed
      let number := n.toNat
      r.checkConfined number
      return ({ r with asked := number :: r.asked }.push (.given number) r.flags, rest)

/-- Flags after an opening parenthesis and a question mark.  Flags for the whole pattern must come
first in it. -/
def openFlags (r : Reader) (cs : List Char) : Read (Reader × List Char) := do
  let (on, mark, rest) ← flagsOn [] cs
  if mark == ')' then
    let atStart := r.outer.isEmpty && r.innermost.done.isEmpty && r.innermost.pieces.isEmpty
    if !atStart then malformed
    let innermost := { r.innermost with flags := r.flags.change on [] }
    return ({ r with innermost, global := on ++ r.global }, rest)
  if on.contains 't' then malformed
  if mark == ':' then return (r.push .plain (r.flags.change on []), rest)
  let (off, rest) ← flagsOff [] rest
  if on.any off.contains then malformed
  return (r.push .plain (r.flags.change on off), rest)

/-- What an opening parenthesis and a question mark begin. -/
def extension (r : Reader) (cs : List Char) : Read (Reader × List Char) := do
  match cs with
  | 'P' :: '<' :: rest =>
    let (name, rest) ← nameUntil '>' rest
    if !Text.isIdentifier name then malformed
    return (← r.openRemembered (some (String.ofList name)), rest)
  | 'P' :: '=' :: rest =>
    let (name, rest) ← nameUntil ')' rest
    match r.names.find? (String.ofList name) with
    | some number => return (r.add (← r.referTo number), rest)
    | none => malformed
  | ':' :: rest => return (r.push .plain r.flags, rest)
  | '#' :: rest =>
    match ← skipPast ')' rest with
    | some rest => return (r, rest)
    | none => malformed
  | '=' :: rest => return (r.push (.ahead false) r.flags, rest)
  | '!' :: rest => return (r.push (.ahead true) r.flags, rest)
  | '<' :: '=' :: rest => return (r.openBehind false, rest)
  | '<' :: '!' :: rest => return (r.openBehind true, rest)
  | '(' :: rest =>
    let (name, rest) ← nameUntil ')' rest
    r.openGiven name rest
  | '>' :: rest => return (r.push .atomic r.flags, rest)
  | c :: rest =>
    if flagLetters.contains c || c == '-' then r.openFlags (c :: rest) else malformed
  | [] => malformed

/-- The end of an alternative.  A part that depends on a group has at most two. -/
def bar (r : Reader) : Read Reader :=
  let o := r.innermost
  let isGiven := match o.opening with
    | .given _ => true
    | _ => false
  if isGiven && !o.done.isEmpty then malformed
  else
    let innermost := { o with done := sequence o.pieces.reverse :: o.done, pieces := [] }
    .ok { r with innermost }

/-- The error about flags for the whole pattern that exclude one another. -/
def clash? (r : Reader) : Option ReadError :=
  if r.global.contains 'a' && r.global.contains 'u' then some .flagClash else none

/-- The width of a pattern by the groups closed so far. -/
def widthOf (r : Reader) (p : Pattern) : Width :=
  p.width fun n => (r.closed.find? n).getD ⟨0, 0⟩

/-- The end of the innermost part. -/
def close (r : Reader) : Read Reader :=
  match r.outer with
  | [] => .error (r.clash?.getD .malformed)
  | next :: outer =>
    let o := r.innermost
    let p := choice o.alternatives
    let back : Reader := { r with innermost := next, outer }
    match o.opening with
    | .whole => malformed
    | .plain => .ok (back.add (.group none p))
    | .remembered number =>
      .ok ({ back with closed := back.closed.put number (r.widthOf p) }.add (.group (some number) p))
    | .atomic => .ok (back.add (.atomic p))
    | .ahead negated => .ok (back.add (.ahead negated p))
    | .behind negated outermost =>
      let w := r.widthOf p
      let fixed := w.least == w.greatest && w.least < 2 ^ 32
      .ok ({ back with
        confined := if outermost then none else back.confined
        unfixed := back.unfixed || !fixed }.add (.behind negated w.least p))
    | .given number =>
      match o.alternatives with
      | [yes] => .ok (back.add (.given number yes .empty))
      | [yes, no] => .ok (back.add (.given number yes no))
      | _ => malformed

/-- Takes a piece off the text, which goes on with a character. -/
def step (named? : String → Option Char) (r : Reader) (c : Char) (rest : List Char) : Read (Reader × List Char) := do
  if r.flags.verbose && Text.isAsciiBlank c then return (r, rest)
  if r.flags.verbose && c == '#' then return (r, (← skipPast '\n' rest).getD [])
  if c == '\\' then
    match rest with
    | [] => malformed
    | e :: rest =>
      let (p, rest) ← r.escape named? e rest
      return (r.add p, rest)
  if c == '[' then
    let (items, negated, rest) ← bracketed named? rest
    return (r.add (r.setPiece items negated), rest)
  if c == '?' then return ← r.repeatLast 0 (some 1) rest
  if c == '*' then return ← r.repeatLast 0 none rest
  if c == '+' then return ← r.repeatLast 1 none rest
  if c.toNat == 0x7b then
    match ← braces? rest with
    | some (least, most, rest) => return ← r.repeatLast least most rest
    | none => return (r.add (r.literal c.toNat), rest)
  if c == '.' then
    let excluded := if r.flags.dotAll then [] else [.single 10]
    return (r.add (.char ⟨excluded, true, false, false⟩), rest)
  if c == '^' then
    return (r.add (.anchor (if r.flags.multiline then .lineStart else .textStart)), rest)
  if c == '$' then
    return (r.add (.anchor (if r.flags.multiline then .lineEnd else .lastEnd)), rest)
  if c == '|' then return (← r.bar, rest)
  if c == ')' then return (← r.close, rest)
  if c == '(' then
    match rest with
    | '?' :: rest => return ← r.extension rest
    | rest => return (← r.openRemembered none, rest)
  return (r.add (r.literal c.toNat), rest)

/-- How many calls deep the reader is, one inside another for the open parts. -/
def calls (r : Reader) : Nat := ((r.innermost :: r.outer).map fun o => o.opening.calls).sum

/-- Takes pieces off the text until nothing is left, as long as there is room for the open parts.  A
backslash with nothing behind it is met before a part is gone into.  The number bounds the steps; the
length of the text is enough, for every step takes a character. -/
def steps (facilities : Facilities) : Nat → Reader → List Char → Read Reader
  | _, r, [] => .ok r
  | 0, _, _ :: _ => malformed
  | n + 1, r, c :: rest => do
    let (r, rest) ← r.step facilities.named? c rest
    if facilities.nesting < r.calls then .error (if rest == ['\\'] then .malformed else .tooDeep)
    steps facilities n r rest

/-- The pattern that was read, if nothing is left open and all references can be met. -/
def finish (r : Reader) : Read Pattern :=
  let p := choice r.innermost.alternatives
  if !r.outer.isEmpty then malformed
  else
    match r.clash? with
    | some e => .error e
    | none =>
      if r.asked.any (r.opened < ·) || r.unfixed || (r.global.contains 't' && p.hasLoop) then malformed
      else .ok p

end Reader

/-- The pattern that characters spell, as far as there is room to go through its parts. -/
def read (facilities : Facilities) (cs : List Char) : Read Pattern := do
  let p ← (← Reader.start.steps facilities cs.length cs).finish
  if facilities.nesting < p.levels then .error .tooDeep
  return p

/-- The pattern that a text spells. -/
def parse (facilities : Facilities) (s : String) : Except Fault Pattern :=
  match read facilities s.toList with
  | .ok p => .ok p
  | .error .malformed => .error (.invalid (.nameFilter s))
  | .error .tooMany => .error .outOfRange
  | .error (.longNumeral digits) => .error (.invalid (.longNumeral digits))
  | .error .flagClash => .error (.invalid .flagClash)
  | .error .tooDeep => .error .tooDeep

end UsageLedger.Pattern
