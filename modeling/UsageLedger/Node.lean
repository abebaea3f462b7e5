/-
UsageLedger/Node.lean

What a traversal meets.  Files, directories and symbolic links are counted;
services name other kinds too, which only have a tag.  Owner, group and name are
whatever the data say, so they may be values of any shape.
-/
import UsageLedger.Json.Count
import UsageLedger.Json.Display

namespace UsageLedger

/-- The kind of a node. -/
inductive NodeKind
  | file
  | directory
  | symlink
  | other (tag : Json)

namespace NodeKind

/-- The kinds that are counted. -/
def counted : List NodeKind := [file, directory, symlink]

/-- The name of a kind in data. -/
def tag : NodeKind → Json
  | file => .text "FS_FILE_TYPE_FILE"
  | directory => .text "FS_FILE_TYPE_DIRECTORY"
  | symlink => .text "FS_FILE_TYPE_SYMLINK"
  | other t => t

/-- The kind that data name. -/
def ofTag (v : Json) : NodeKind := (counted.find? fun k => k.tag == v).getD (other v)

/-- Whether nodes of a kind are counted. -/
def isCounted : NodeKind → Bool
  | other _ => false
  | _ => true

/-- Whether a kind is that of directories. -/
def isDirectory : NodeKind → Bool
  | directory => true
  | _ => false

/-- Whether a kind is that of files. -/
def isFile : NodeKind → Bool
  | file => true
  | _ => false

end NodeKind

/-- A node.  Size and blocks count for files alone. -/
structure Node where
  kind : NodeKind
  name : Json
  user : Json
  group : Json
  size : Int
  blocks : Int

/-- A node as it appears in messages. -/
def Node.describe (n : Node) : String :=
  "FsNode(" ++ n.kind.tag.display ++ ", " ++ n.name.quoted ++ ", user=" ++ n.user.quoted ++
    ", group=" ++ n.group.quoted ++ ", size=" ++ toString n.size ++ ")"

end UsageLedger
