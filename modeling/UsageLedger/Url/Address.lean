/-
UsageLedger/Url/Address.lean

Network addresses in brackets.  Only addresses of eight parts, with an optional
zone, may stand there, or addresses of a future version.
-/
import UsageLedger.Fault
import UsageLedger.Text.Digit
import UsageLedger.Text.Hex
import UsageLedger.Text.Pieces

namespace UsageLedger.Url

/-- A number from 0 to 255 without leading zeros. -/
def isByteNumeral (cs : List Char) : Bool :=
  !cs.isEmpty && cs.length ≤ 3 && cs.all Text.isAsciiDigit && (cs.length == 1 || cs.head? != some '0') &&
    Text.digitsValue cs ≤ 255

/-- An address of four numbers. -/
def isFourPart (cs : List Char) : Bool :=
  let parts := Text.pieces '.' cs
  parts.length == 4 && parts.all isByteNumeral

/-- A part of an address of eight parts. -/
def isHexPart (cs : List Char) : Bool :=
  !cs.isEmpty && cs.length ≤ 4 && cs.all fun c => (Text.hexValue? c).isSome

/-- The parts of an address with a last one of four numbers made two; none if that one is wrong. -/
def expandLast (parts : List (List Char)) : Option (List (List Char)) :=
  match parts.getLast? with
  | some last =>
    if last.contains '.' then
      if isFourPart last then some (parts.dropLast ++ [['0'], ['0']]) else none
    else some parts
  | none => some parts

/-- Parts without a gap: there are eight of them. -/
def isComplete (parts : List (List Char)) : Bool := parts.length == 8 && parts.all isHexPart

/-- Parts with a gap at a place: an empty part at either end only next to the gap, and at least one
part left out. -/
def isGapped (parts : List (List Char)) (gap : Nat) : Bool :=
  let before := parts.take gap
  let after := parts.drop (gap + 1)
  let high := if before.head? == some [] then before.tail else before
  let low := if after.getLast? == some [] then after.dropLast else after
  (before.head? != some [] || high.isEmpty) && (after.getLast? != some [] || low.isEmpty) &&
    high.length + low.length < 8 && high.all isHexPart && low.all isHexPart

/-- The places of empty parts that are neither the first nor the last. -/
def innerGaps (parts : List (List Char)) : List Nat :=
  (List.range parts.length).filter fun i => 0 < i && i + 1 < parts.length && parts[i]? == some []

/-- An address of eight parts, without its zone. -/
def isEightPart (cs : List Char) : Bool :=
  let parts := Text.pieces ':' cs
  if parts.length < 3 then false
  else
    match expandLast parts with
    | none => false
    | some parts =>
      if 9 < parts.length then false
      else
        match innerGaps parts with
        | [] => isComplete parts
        | [gap] => isGapped parts gap
        | _ => false

/-- An address of eight parts, perhaps with a zone after a percent sign. -/
def isZoned (cs : List Char) : Bool :=
  if cs.contains '/' then false
  else
    let address := cs.takeWhile (· != '%')
    match cs.dropWhile (· != '%') with
    | [] => isEightPart address
    | _ :: zone => !zone.isEmpty && !zone.contains '%' && isEightPart address

/-- An address of a future version: a number, a point and anything. -/
def isFuture (cs : List Char) : Bool :=
  match cs with
  | 'v' :: rest =>
    let digits := rest.takeWhile fun c => (Text.hexValue? c).isSome
    match rest.drop digits.length with
    | '.' :: _ :: _ => !digits.isEmpty
    | _ => false
  | _ => false

/-- Checks what stands in brackets. -/
def checkBracketed (cs : List Char) : Except Fault Unit :=
  if cs.head? == some 'v' then
    if isFuture cs then .ok () else .error (.invalid .futureAddress)
  else if isFourPart cs then .error (.invalid .fourPartAddress)
  else if isZoned cs then .ok ()
  else .error (.invalid (.hostAddress (String.ofList cs)))

end UsageLedger.Url
