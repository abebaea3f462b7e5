/-
UsageLedger/Report/Shared.lean

A report that many callbacks fill at once.  The usages of the tables are shared
objects, each at a place of its own; a table says at which place the usage of a
key is.  A callback first gets the place for its group, then the place for its
user, and then counts its node overall, for the group and for the user.

Between its steps the other callbacks may do anything.  So what was not there
when a callback looked may be there when it comes to make an entry: under the
lock of the table it looks again, and makes one only if there still is none.
-/
import UsageLedger.Report.Basic

namespace UsageLedger

/-- The tables of a report. -/
inductive Role
  | group
  | user
  deriving DecidableEq, Repr

/-- The key of a visit in a table. -/
def Visit.keyIn (v : Visit) : Role → String
  | .group => v.groupKey
  | .user => v.userKey

/-! ### What is shared -/

/-- The usage overall, the usages of all entries in the order in which they were made, and for each
table the places of its keys. -/
structure Shared (b : Borders) where
  overall : Usage b
  usages : List (Usage b)
  table : Role → Catalog String Nat

namespace Shared

variable {b : Borders}

/-- Nothing counted yet. -/
def start (b : Borders) : Shared b := ⟨.zero b, [], fun _ => []⟩

/-- The place for a key, if there is one. -/
def lookUp (s : Shared b) (role : Role) (key : String) : Option Nat := (s.table role).find? key

/-- The place for a key that had none, with a new usage there. -/
def enter (s : Shared b) (role : Role) (key : String) : Shared b :=
  { s with
    usages := s.usages ++ [.zero b]
    table := fun r => if r = role then (s.table r).put key s.usages.length else s.table r }

/-- What is done under the lock of a table: looks for a key again, and enters it if there still is
no place for it. -/
def ensure (s : Shared b) (role : Role) (key : String) : Shared b × Nat :=
  match s.lookUp role key with
  | some place => (s, place)
  | none => (s.enter role key, s.usages.length)

/-- Counts a node at a place. -/
def countAt (s : Shared b) (place : Nat) (n : Node) : Shared b :=
  { s with usages := s.usages.modify place (Usage.counted n) }

/-- Counts a node overall. -/
def countOverall (s : Shared b) (n : Node) : Shared b := { s with overall := s.overall.counted n }

/-- A table with the usages at its places. -/
def entries (s : Shared b) (role : Role) : Catalog String (Usage b) :=
  (s.table role).map fun e => (e.1, s.usages.getD e.2 (.zero b))

end Shared

/-! ### Callbacks -/

/-- How far a callback has come, with the places that it has got. -/
inductive Stage
  | started
  | groupMissed
  | groupHeld (group : Nat)
  | userMissed (group : Nat)
  | resolved (group user : Nat)
  | countedOverall (group user : Nat)
  | countedGroup (group user : Nat)
  | finished (group user : Nat)
  deriving DecidableEq, Repr

/-- A callback for a visit. -/
structure Callback where
  visit : Visit
  stage : Stage

/-- The next step of a callback, if it has not finished. -/
def Shared.advance {b : Borders} (s : Shared b) (v : Visit) : Stage → Option (Shared b × Stage)
  | .started =>
    match s.lookUp .group v.groupKey with
    | some group => some (s, .groupHeld group)
    | none => some (s, .groupMissed)
  | .groupMissed =>
    let (s, group) := s.ensure .group v.groupKey
    some (s, .groupHeld group)
  | .groupHeld group =>
    match s.lookUp .user v.userKey with
    | some user => some (s, .resolved group user)
    | none => some (s, .userMissed group)
  | .userMissed group =>
    let (s, user) := s.ensure .user v.userKey
    some (s, .resolved group user)
  | .resolved group user => some (s.countOverall v.node, .countedOverall group user)
  | .countedOverall group user => some (s.countAt group v.node, .countedGroup group user)
  | .countedGroup group user => some (s.countAt user v.node, .finished group user)
  | .finished _ _ => none

/-! ### Many callbacks at once -/

/-- Callbacks at work, and what they share. -/
structure System (b : Borders) where
  shared : Shared b
  running : List Callback

namespace System

variable {b : Borders}

/-- The callbacks of some visits, all at their beginning. -/
def start (b : Borders) (visits : List Visit) : System b :=
  ⟨.start b, (callbacks visits).map fun v => ⟨v, .started⟩⟩

/-- One step of one callback, by its number, if it can take one. -/
def turn? (s : System b) (n : Nat) : Option (System b) := do
  let c ← s.running[n]?
  let (shared, stage) ← s.shared.advance c.visit c.stage
  return ⟨shared, s.running.set n ⟨c.visit, stage⟩⟩

/-- The callbacks take turns as a schedule says, if they can. -/
def run? (s : System b) : List Nat → Option (System b)
  | [] => some s
  | n :: rest => do
    let s ← s.turn? n
    s.run? rest

/-- No callback has a step left. -/
def Finished (s : System b) : Prop := ∀ n, s.turn? n = none

/-- The report as it stands. -/
def report (s : System b) (path : String) : Report b :=
  ⟨path, s.shared.overall, s.shared.entries .group, s.shared.entries .user⟩

end System

end UsageLedger
