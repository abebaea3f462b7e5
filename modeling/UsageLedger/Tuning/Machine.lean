/-
UsageLedger/Tuning/Machine.lean

What a machine has to offer: processors and open files.
-/

namespace UsageLedger.Tuning

/-- What a machine tells about itself. -/
structure Machine where
  platform : String
  /-- The number of processors that the program may use, where the system tells it. -/
  usable? : Option Nat
  /-- The number of processors, where the system tells it. -/
  processors? : Option Nat
  /-- The number of files that may be open at once, where the system tells it. -/
  openFiles? : Option Int

namespace Machine

/-- The number of processors to count on, at least one. -/
def cpus (m : Machine) : Nat := max 1 (m.usable?.getD (m.processors?.getD 0))

/-- The number of open files to count on. -/
def openFiles (m : Machine) : Int :=
  m.openFiles?.getD (if m.platform == "win32" then 8192 else 256)

end Machine

end UsageLedger.Tuning
