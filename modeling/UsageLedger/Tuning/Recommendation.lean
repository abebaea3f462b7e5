/-
UsageLedger/Tuning/Recommendation.lean

Settings recommended for a machine.  They grow with the number of processors, by
a factor that depends on the style, between a floor and the ceiling of the
style; and open files are left over for other purposes.
-/
import UsageLedger.Fault
import UsageLedger.Number.Binary64

namespace UsageLedger.Tuning

open Number

/-- How much of a machine is used. -/
inductive Style
  | conservative
  | balanced
  | aggressive
  deriving DecidableEq, Repr

namespace Style

/-- All styles. -/
def all : List Style := [conservative, balanced, aggressive]

/-- The name of a style. -/
def name : Style → String
  | conservative => "conservative"
  | balanced => "balanced"
  | aggressive => "aggressive"

/-- The style with a name; an unknown name stands for the balanced one. -/
def ofName (name : String) : Style := (all.find? fun s => s.name == name).getD balanced

/-- The factor of a style. -/
def factor : Style → Binary64
  | conservative => .nearest false 4 5
  | balanced => .nearest false 1 1
  | aggressive => .nearest false 3 2

/-- The most workers. -/
def workerCeiling : Style → Int
  | conservative => 4
  | balanced => 16
  | aggressive => 64

/-- The most requests at once. -/
def requestCeiling : Style → Int
  | conservative => 150
  | balanced => 300
  | aggressive => 500

end Style

/-- The fewest workers. -/
def workerFloor : Int := 2

/-- The fewest requests at once. -/
def requestFloor : Int := 25

/-- The number of open files that are left over. -/
def spareFiles : Int := 50

/-- So many for each processor, times the factor of a style, without the fraction. -/
def scaled (s : Style) (cpus each : Int) : Except Fault Int :=
  match (Binary64.ofInt? (cpus * each)).bind fun x => (x.mul s.factor).truncate? with
  | some n => .ok n
  | none => .error .outOfRange

/-- What is recommended for a machine. -/
structure Recommendation where
  /-- Workers on a snapshot. -/
  workers : Int
  /-- Requests at once. -/
  requests : Int
  /-- Connections at once. -/
  connections : Int
  deriving DecidableEq, Repr

/-- What is recommended for so many processors and open files. -/
def recommend (s : Style) (cpus openFiles : Int) : Except Fault Recommendation := do
  let workers := min (max workerFloor (← scaled s cpus 2)) s.workerCeiling
  let requests := min (max requestFloor (← scaled s cpus 50)) s.requestCeiling
  let requests := min requests (max requestFloor (openFiles - spareFiles))
  return ⟨workers, requests, requests⟩

end UsageLedger.Tuning
