/-
UsageLedger/Credentials.lean

The file with the token for a cluster.  A relative name is one below the home
directory.
-/
import UsageLedger.Fault
import UsageLedger.Files

namespace UsageLedger.Credentials

/-- The name of the file if nothing else is said. -/
def fileName : String := ".qfsd_cred"

/-- The home directory, from what is given as such.  Slashes at its end do not count, the empty one is the
root, and a tilde is none. -/
def homeDirectory? : Option String → Option String
  | none => none
  | some given =>
    let cs := (given.toList.reverse.dropWhile (· == '/')).reverse
    let home := if cs.isEmpty then "/" else String.ofList cs
    let home := if home == "~" then given else home
    if home == "~" then none else some home

/-- A name below a directory. -/
def join (directory name : String) : String :=
  if directory.endsWith "/" then directory ++ name else directory ++ "/" ++ name

/-- The path of the file with a name. -/
def path (home? : Option String) (isDirectory : String → Bool) (name : String) : Except Fault String :=
  if name.startsWith "/" then .ok name
  else
    match homeDirectory? home? with
    | none => .error (.store .noHome)
    | some home =>
      let path := join home name
      if isDirectory path then .error (.store (.isDirectory path)) else .ok path

/-- The token in a file, if there is one. -/
def token? (state : FileState) : Option String :=
  match state.json? with
  | some (.object members) => (Catalog.find? "bearer_token" members).bind Json.text?
  | _ => none

end UsageLedger.Credentials
