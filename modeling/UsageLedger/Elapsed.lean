/-
UsageLedger/Elapsed.lean

Elapsed times as text.  Below a minute a time is its seconds with one decimal;
from there on hours, minutes and seconds, without those that are zero, stand
before the seconds in parentheses.
-/
import UsageLedger.Json.Lookup

namespace UsageLedger.Elapsed

open Number

/-- Whole hours, minutes and seconds. -/
structure Clock where
  hours : Int
  minutes : Int
  seconds : Int
  deriving DecidableEq, Repr

/-- A whole number of seconds. -/
def Clock.ofWhole (s : Int) : Clock := ⟨s / 3600, s % 3600 / 60, s % 3600 % 60⟩

/-- A double precision number of seconds, without the fraction; none if it is not finite. -/
def Clock.ofReal? (x : Binary64) : Option Clock := do
  let hours ← (x.floorDiv 3600).truncate?
  let rest := x.modulo 3600
  let minutes ← (rest.floorDiv 60).truncate?
  let seconds ← (rest.modulo 60).truncate?
  return ⟨hours, minutes, seconds⟩

/-- The clock reading of a number of seconds. -/
def Clock.ofQuantity? : Quantity → Option Clock
  | .whole s => some (ofWhole s)
  | .real x => ofReal? x

/-- Hours, minutes and seconds, each only if it is not zero; if all are, the seconds. -/
def Clock.parts (c : Clock) : List String :=
  let larger := (if c.hours > 0 then [toString c.hours ++ "h"] else []) ++
    (if c.minutes > 0 then [toString c.minutes ++ "m"] else [])
  larger ++ if c.seconds > 0 || larger.isEmpty then [toString c.seconds ++ "s"] else []

/-- A number of seconds with one decimal. -/
def seconds (q : Quantity) : Except Fault String :=
  match q.fixed? 1 with
  | some s => .ok (s ++ "s")
  | none => .error .outOfRange

/-- An elapsed time. -/
def text (q : Quantity) : Except Fault String :=
  if q.below (.whole 60) then seconds q
  else
    match Clock.ofQuantity? q with
    | none => .error (.invalid .notANumber)
    | some c => (seconds q).map fun total => " ".intercalate c.parts ++ " (" ++ total ++ ")"

/-- Any value as an elapsed time. -/
def textOf (v : Json) : Except Fault String := v.asQuantity.bind text

end UsageLedger.Elapsed
