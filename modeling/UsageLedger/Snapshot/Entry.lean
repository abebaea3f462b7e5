/-
UsageLedger/Snapshot/Entry.lean

The entries of a snapshot, one JSON object a line.  An entry names a path and a
kind; the names of owner and group go before their numbers, and numbers that are
unusable count as zero.  A kind that is none is shown in the message, if there is
room to show it.
-/
import UsageLedger.Files
import UsageLedger.Node
import UsageLedger.Path

namespace UsageLedger.Snapshot

/-- A node and its path. -/
structure Entry where
  path : Path
  node : Node

/-- Where an entry stands, for messages. -/
structure Place where
  file : String
  line : Int

/-- The owner or group of an entry: its name if that is given, else its number. -/
def ownerOf (members : Catalog String Json) (role : String) : Json :=
  match (members.find? (role ++ "_name")).getD .null with
  | .null => (members.find? role).getD .null
  | v => v

/-- The name of an entry: the one given, else the last name of its path. -/
def nameOf (members : Catalog String Json) (path : Path) : Json :=
  ((members.find? "name").getD .null).orElse (.text (path.lastName?.getD "/"))

/-- A count of a file; other kinds have none. -/
def countOf (members : Catalog String Json) (kind : NodeKind) (field : String) : Except Fault Nat :=
  if kind.isFile then ((members.find? field).getD .null).toCount else .ok 0

/-- The entry that the members of an object describe, with some room to show a type that is none. -/
def Entry.ofMembers (room : Nat) (place : Place) (members : Catalog String Json) : Except Fault Entry := do
  let given := ((members.find? "path").getD .null).text?.getD ""
  if given.isEmpty then throw (.snapshot (.noPath place.file place.line))
  let tag := (members.find? "type").getD .null
  let kind := NodeKind.ofTag tag
  if !kind.isCounted then
    let shown ← tag.displayWithin room
    throw (.snapshot (.unknownKind place.file place.line shown))
  let path := Path.ofText given
  let size ← countOf members kind "size"
  let blocks ← countOf members kind "datablocks"
  return ⟨path, kind, nameOf members path, ownerOf members "owner", ownerOf members "group", size,
    blocks⟩

/-- The entry that a line describes. -/
def Entry.parse (room : Nat) (place : Place) (line : String) : Except Fault Entry :=
  match Json.parse? .standard line with
  | none => .error (.snapshot (.badLine place.file place.line))
  | some (.object members) => Entry.ofMembers room place members
  | some _ => .error (.snapshot (.noPath place.file place.line))

end UsageLedger.Snapshot
