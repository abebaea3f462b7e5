/-
UsageLedger/Cluster/Entry.lean

Entries of a cluster.  An entry names a path and a kind, and owner and group by
their ids.  Once the names that belong to the ids are known the entry becomes a
visit.
-/
import UsageLedger.Cluster.Client
import UsageLedger.Json.Count
import UsageLedger.Text.Pieces
import UsageLedger.Visit

namespace UsageLedger.Cluster

/-- An entry whose owner and group have no names yet. -/
structure Entry where
  members : Catalog String Json
  /-- The path, which may be of any shape as long as nobody asks for its text. -/
  path : Json
  kind : NodeKind

/-- A path without the slashes at its end. -/
def trimmed (path : String) : List Char := (path.toList.reverse.dropWhile (· == '/')).reverse

/-- A path without slashes at its end; of the root one slash stays. -/
def trimmedPath (path : String) : String :=
  let cs := trimmed path
  if cs.isEmpty then "/" else String.ofList cs

/-- The last name of a path; that of the root is a slash. -/
def lastName (path : String) : String :=
  let name := (Text.pieces '/' (trimmed path)).getLastD []
  if name.isEmpty then "/" else String.ofList name

namespace Entry

/-- A member of an entry; null if it has none. -/
def member (e : Entry) (name : String) : Json := (e.members.find? name).getD .null

/-- The entry that a value describes, with a path for one that has none. -/
def ofJson (v : Json) (path : String) : Except Fault Entry := do
  let members ← v.members
  let given (name : String) : Json := (members.find? name).getD .null
  return ⟨members, (given "path").orElse (.text path), .ofTag (given "type")⟩

/-- The name of an entry: the one given, else the last name of its path. -/
def name (e : Entry) : Except Fault Json :=
  if (e.member "name").isPresent then .ok (e.member "name")
  else e.path.asText.map fun s => .text (lastName s)

/-- A count of a file; other kinds have none. -/
def count (e : Entry) (field : String) : Except Fault Nat :=
  if e.kind.isFile then (e.member field).toCount else .ok 0

/-- The visit of an entry whose owner and group have these names. -/
def visit (e : Entry) (owner group : Json) : Except Fault Visit := do
  let name ← e.name
  let size ← e.count "size"
  let blocks ← e.count "datablocks"
  let path ← e.path.asText
  return ⟨trimmedPath path, e.kind, name, owner, group, size, blocks⟩

/-- What is said about an entry that is left out. -/
def skipped (e : Entry) : String :=
  "\r[WARN] Skipping " ++ (e.member "path").display ++ ": type " ++ (e.member "type").display ++ "\n"

end Entry

/-- The visit that a value describes, with a path for one that has none, after looking up the names of
owner and group at once. -/
def Client.visitOf (site : Site) (c : Client) (v : Json) (path : String) : Client × Except Fault Visit :=
  match Entry.ofJson v path with
  | .error f => (c, .error f)
  | .ok e =>
    let (c, names) := c.names site [e.member "owner", e.member "group"]
    (c, names.bind fun names => e.visit (names[0]?.getD .null) (names[1]?.getD .null))

end UsageLedger.Cluster
