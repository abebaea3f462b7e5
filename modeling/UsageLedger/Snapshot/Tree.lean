/-
UsageLedger/Snapshot/Tree.lean

The tree of a snapshot.  Beside the nodes stands an index from each directory to
what it holds, with the directories that only deeper entries imply.  The index
is built by climbing from every recorded path towards the root, up to the first
path that is in the index already.

A tree carries the proofs that its index is the one of its nodes and that
nothing lies below a file or a link.
-/
import UsageLedger.Snapshot.Entry
import UsageLedger.Text.Align

namespace UsageLedger.Snapshot

/-- What each directory holds, in order of first mention. -/
abbrev Index := Catalog Path (List Path)

namespace Index

/-- What a directory holds. -/
def childrenOf (index : Index) (directory : Path) : List Path :=
  (index.find? directory).getD []

/-- Whether a path is listed in the directory that holds it. -/
def lists (index : Index) (p : Path) : Bool := (index.childrenOf p.parent).contains p

/-- Lists a path in the directory that holds it, and that directory in its own, and so on, up to the
root or to a path that is listed already. -/
def climb (index : Index) (p : Path) : Index :=
  if p = .root || index.lists p then index
  else climb (index.put p.parent (index.childrenOf p.parent ++ [p])) p.parent
termination_by p.names.length
decreasing_by
  rename_i h
  simp only [Bool.or_eq_true, decide_eq_true_eq, not_or] at h
  exact Path.length_parent h.1

/-- The index of some recorded paths. -/
def ofPaths (paths : List Path) : Index := paths.foldl climb []

end Index

/-- The nodes of a snapshot by path, in order of first mention. -/
abbrev Nodes := Catalog Path Node

/-- The first directory of an index that is recorded as something else, and the first of what it is
said to hold. -/
def misplaced? (nodes : Nodes) (index : Index) : Option (Path × Path) :=
  index.findSome? fun (directory, held) =>
    match nodes.find? directory with
    | some node => if node.kind.isDirectory then none else held.head?.map fun p => (p, directory)
    | none => none

/-- The nodes of a snapshot and what each directory holds. -/
structure Tree where
  nodes : Nodes
  index : Index
  index_eq : index = Index.ofPaths nodes.keys
  misplaced_eq : misplaced? nodes index = none

/-- The tree of some nodes, unless something lies below a file or a link. -/
def Tree.ofNodes (nodes : Nodes) : Except Fault Tree :=
  let index := Index.ofPaths nodes.keys
  match h : misplaced? nodes index with
  | some (child, parent) => .error (.snapshot (.belowLeaf child.text parent.text))
  | none => .ok ⟨nodes, index, rfl, h⟩

/-! ### Loading -/

/-- Adds the entries of lines to nodes; of several entries with one path the last one counts. -/
def addLines (room : Nat) (file : String) : Nodes → Int → List String → Except Fault Nodes
  | nodes, _, [] => .ok nodes
  | nodes, number, line :: rest =>
    if Text.isBlankText line then addLines room file nodes (number + 1) rest
    else
      match Entry.parse room ⟨file, number⟩ line with
      | .ok entry => addLines room file (nodes.put entry.path entry.node) (number + 1) rest
      | .error f => .error f

/-- The nodes that a snapshot file records. -/
def readNodes (room : Nat) (file : String) : FileState → Except Fault Nodes
  | .bytes content => do
    let source := Text.LineSource.ofBytes content
    let nodes ← addLines room file [] 1 source.lines
    if source.broken then throw (.snapshot (.unreadable file))
    return nodes
  | _ => .error (.snapshot (.unreadable file))

/-- What loading says: how many entries there are. -/
def loadMessage (file : String) (nodes : Nodes) : String :=
  "[INFO] Loaded " ++ Text.grouped nodes.length ++ " entries from " ++ file ++ "\n"

/-- The tree of a snapshot file, after what is said on the way. -/
def load (room : Nat) (verbose : Bool) (file : String) (state : FileState) :
    String × Except Fault Tree :=
  match readNodes room file state with
  | .error f => ("", .error f)
  | .ok nodes => (if verbose then loadMessage file nodes else "", Tree.ofNodes nodes)

end UsageLedger.Snapshot
