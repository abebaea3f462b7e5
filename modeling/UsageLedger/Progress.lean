/-
UsageLedger/Progress.lean

Progress of a traversal.  A line is written when more than an interval has
passed since the last one; the first interval begins with the traversal.
-/
import UsageLedger.Elapsed
import UsageLedger.Text.Align

namespace UsageLedger

open Number

/-- The progress of a traversal. -/
structure Progress where
  files : Int
  directories : Int
  symlinks : Int
  /-- When the traversal began. -/
  start : Quantity
  /-- When the last line was written. -/
  last : Quantity
  interval : Quantity
  /-- Whether lines are written at all. -/
  shown : Bool

namespace Progress

/-- Half a second. -/
def standardInterval : Quantity := .real (Binary64.nearest false 1 2)

/-- The progress at the beginning. -/
def begin (now interval : Quantity) (shown : Bool) : Progress := ⟨0, 0, 0, now, now, interval, shown⟩

/-- The number of nodes. -/
def total (p : Progress) : Int := p.files + p.directories + p.symlinks

/-- The time from one reading of the clock to another. -/
def between (earlier later : Quantity) : Except Fault Quantity :=
  match later.sub? earlier with
  | some q => .ok q
  | none => .error .outOfRange

/-- Nodes per second, with one decimal. -/
def rate (total : Int) (elapsed : Quantity) : Except Fault String :=
  let perSecond : Option Quantity :=
    if elapsed.above (.whole 0) then ((Quantity.whole total).div? elapsed).map .real
    else some (.whole 0)
  match perSecond.bind (·.fixed? 1) with
  | some s => .ok s
  | none => .error .outOfRange

/-- The line about the progress at a time. -/
def line (p : Progress) (now : Quantity) (label : String) : Except Fault String := do
  let elapsed ← between p.start now
  let perSecond ← rate p.total elapsed
  let time ← Elapsed.text elapsed
  return "\r[PROGRESS] " ++ label ++ Text.grouped p.total ++ " objects visited | " ++
    Text.grouped p.files ++ " files | " ++ Text.grouped p.directories ++ " dirs | " ++
    Text.grouped p.symlinks ++ " symlinks | " ++ perSecond ++ " obj/sec | Run time: " ++ time

/-- Adds to the counts. -/
def add (p : Progress) (files directories symlinks : Int) : Progress :=
  { p with
    files := p.files + files
    directories := p.directories + directories
    symlinks := p.symlinks + symlinks }

/-- Adds to the counts, and writes a line if it is time. -/
def update (p : Progress) (now : Quantity) (files directories symlinks : Int) :
    Progress × Except Fault String :=
  let p := p.add files directories symlinks
  if !p.shown then (p, .ok "")
  else
    match between p.last now with
    | .error f => (p, .error f)
    | .ok since =>
      if since.above p.interval then
        match p.line now "" with
        | .error f => (p, .error f)
        | .ok s => ({ p with last := now }, .ok s)
      else (p, .ok "")

/-- The last line. -/
def final (p : Progress) (now : Quantity) : Except Fault String :=
  if p.shown then (p.line now "FINAL: ").map (· ++ "\n") else .ok ""

end Progress

end UsageLedger
