/-
UsageLedger/Snapshot/Visit.lean

Visiting a snapshot below a path, level by level.  The root of the visit comes
first if it is recorded; then every directory of a level gives its recorded
entries, and the directories among them, implied ones too, make up the next
level.
-/
import UsageLedger.Snapshot.Tree
import UsageLedger.Visit

namespace UsageLedger.Snapshot.Tree

/-- The visit of a path, if it is recorded. -/
def visit? (t : Tree) (p : Path) : Option UsageLedger.Visit :=
  (t.nodes.find? p).map fun node => ⟨p.text, node⟩

/-- Whether a path may hold others: it is a directory, recorded or implied. -/
def mayHold (t : Tree) (p : Path) : Bool :=
  match t.nodes.find? p with
  | some node => node.kind.isDirectory
  | none => true

/-- What the directories of a level hold, in order. -/
def held (t : Tree) (level : List Path) : List Path := level.flatMap t.index.childrenOf

/-- The visits below the directories of a level.  The first argument bounds the number of levels. -/
def visitsBelow (t : Tree) : Nat → List Path → List UsageLedger.Visit
  | 0, _ => []
  | depth + 1, level =>
    let paths := t.held level
    if paths.isEmpty then []
    else paths.filterMap t.visit? ++ visitsBelow t depth (paths.filter t.mayHold)

/-- The greatest number of names in a recorded path: there are no deeper levels. -/
def depth (t : Tree) : Nat := (t.nodes.keys.map fun p => p.names.length).foldl max 0

/-- Whether a path is recorded or implied. -/
def contains (t : Tree) (p : Path) : Bool := t.nodes.has p || t.index.has p

/-- The visit of all that lies at or below a path, with a number of workers. -/
def visit (t : Tree) (workers : Int) (given : String) : Traversal :=
  let root := Path.ofText given
  if !t.contains root then .failed (.snapshot (.notFound given))
  else
    let first := (t.visit? root).toList
    if !t.mayHold root then .ofVisits first
    else if workers < 1 then ⟨first.map .visit, some (.invalid .workerCount)⟩
    else .ofVisits (first ++ t.visitsBelow t.depth [root])

end UsageLedger.Snapshot.Tree
