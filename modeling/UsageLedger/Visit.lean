/-
UsageLedger/Visit.lean

What a traversal reports: one visit after another, remarks for the user in
between, and perhaps the fault that broke it off.
-/
import UsageLedger.Node

namespace UsageLedger

/-- A node met at a path. -/
structure Visit where
  path : String
  node : Node

/-- The visits that call back, in order: those of files, directories and symbolic links. -/
def callbacks (visits : List Visit) : List Visit :=
  visits.filter fun v => v.node.kind.isCounted

/-- What happens in a traversal. -/
inductive Event
  | visit (v : Visit)
  /-- A line for the user, its end included. -/
  | remark (text : String)

/-- The visit that an event is. -/
def Event.visit? : Event → Option Visit
  | visit v => some v
  | remark _ => none

/-- The events of a traversal in order, and the fault that ended it early, if one did. -/
structure Traversal where
  events : List Event
  fault : Option Fault

namespace Traversal

/-- A traversal that fails before anything happens. -/
def failed (f : Fault) : Traversal := ⟨[], some f⟩

/-- A traversal that consists of visits and goes through. -/
def ofVisits (visits : List Visit) : Traversal := ⟨visits.map .visit, none⟩

/-- The visits of a traversal. -/
def visits (t : Traversal) : List Visit := t.events.filterMap Event.visit?

@[simp] theorem visits_ofVisits (visits : List Visit) : (ofVisits visits).visits = visits := by
  unfold Traversal.visits ofVisits
  induction visits with
  | nil => rfl
  | cons v rest ih => simpa [Event.visit?] using ih

/-- The visits, unless a fault ended the traversal. -/
def toExcept (t : Traversal) : Except Fault (List Visit) :=
  match t.fault with
  | some f => .error f
  | none => .ok t.visits

end Traversal

end UsageLedger
