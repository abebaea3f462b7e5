/-
UsageLedger/Report/Basic.lean

Reports: the usage of a tree overall, per group and per user.  A node counts in
all three; one whose owner or group is no text counts under the empty key, so
the totals agree.
-/
import UsageLedger.Report.Usage
import UsageLedger.Visit

namespace UsageLedger

/-- The usage of what lies at or below a path. -/
structure Report (b : Borders) where
  path : String
  overall : Usage b
  groups : Catalog String (Usage b)
  users : Catalog String (Usage b)

/-- The key of nodes without a known owner. -/
def unknownOwner : String := ""

/-- The key of an owner or a group. -/
def ownerKey (v : Json) : String := v.text?.getD unknownOwner

/-- The key of the group that a visit counts for. -/
def Visit.groupKey (v : Visit) : String := ownerKey v.node.group

/-- The key of the user that a visit counts for. -/
def Visit.userKey (v : Visit) : String := ownerKey v.node.user

namespace Report

variable {b : Borders}

/-- The report of a path before anything is counted. -/
def start (b : Borders) (path : String) : Report b := ⟨path, .zero b, [], []⟩

/-- The report with an entry for a user. -/
def withUser (r : Report b) (user : String) : Report b :=
  { r with users := r.users.update user (.zero b) id }

/-- The report with an entry for a group. -/
def withGroup (r : Report b) (group : String) : Report b :=
  { r with groups := r.groups.update group (.zero b) id }

/-- Changes the usage overall, of a group and of a user. -/
def count (r : Report b) (group user : String) (change : Usage b → Usage b) : Report b :=
  { r with
    overall := change r.overall
    groups := r.groups.update group (.zero b) change
    users := r.users.update user (.zero b) change }

/-- How a node changes the usage that it counts in; nodes of other kinds do not count. -/
def changeOf (n : Node) : Option (Usage b → Usage b) :=
  match n.kind with
  | .file => some fun u => u.addFile n.size n.blocks
  | .directory => some Usage.addDirectory
  | .symlink => some Usage.addSymlink
  | .other _ => none

/-- Counts a node. -/
def record (r : Report b) (n : Node) : Report b :=
  match changeOf n with
  | some change => r.count (ownerKey n.group) (ownerKey n.user) change
  | none => r

/-- The report of the nodes of some visits. -/
def ofVisits (b : Borders) (path : String) (visits : List Visit) : Report b :=
  visits.foldl (fun r v => r.record v.node) (start b path)

end Report

/-- A usage with a node counted in it; nodes of other kinds do not count. -/
def Usage.counted {b : Borders} (n : Node) (u : Usage b) : Usage b :=
  ((Report.changeOf n).getD id) u

end UsageLedger
