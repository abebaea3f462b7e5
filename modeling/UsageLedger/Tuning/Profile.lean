/-
UsageLedger/Tuning/Profile.lean

Tuning profiles: what is recommended for a machine, kept in a file.  A file
counts if it holds a profile of the version in use.
-/
import UsageLedger.Files
import UsageLedger.Json.Display
import UsageLedger.Json.Lookup
import UsageLedger.Tuning.Machine
import UsageLedger.Tuning.Recommendation

namespace UsageLedger.Tuning

/-- The name of the file. -/
def fileName : String := "tuning-profile"

/-- The version of profiles in use. -/
def version : Int := 1

/-- A machine in a profile. -/
def Machine.toJson (m : Machine) : Json :=
  .object [("os", .text m.platform), ("cpu_count", .int m.cpus), ("fd_limit", .int m.openFiles)]

/-- A recommendation in a profile. -/
def Recommendation.toJson (r : Recommendation) : Json :=
  .object
    [ ("max_workers", .int r.workers), ("max_concurrent", .int r.requests),
      ("connector_limit", .int r.connections) ]

/-- The profile of a machine in the style with a name, with the time at which it is made. -/
def profile (m : Machine) (styleName created : String) : Except Fault Json := do
  let recommended ← recommend (.ofName styleName) m.cpus m.openFiles
  return .object
    [ ("version", .int version), ("created", .text created), ("platform", m.toJson),
      ("recommended", recommended.toJson), ("profile", .text styleName) ]

/-- Whether a value is a profile of the version in use. -/
def isProfile : Json → Bool
  | .object members =>
    ((Catalog.find? "version" members).getD .null).equalsInt version &&
      ["platform", "recommended", "profile"].all fun name => Catalog.has name members
  | _ => false

/-- The profile in a file, if there is one. -/
def loadProfile? (state : FileState) : Option Json := state.json?.filter isProfile

/-- A profile in words. -/
def summary (profile : Json) : Except Fault String := do
  let platform ← profile.memberOr "platform" (.object [])
  let recommended ← profile.memberOr "recommended" (.object [])
  let shown (v : Json) (name missing : String) : Except Fault String :=
    (v.memberOr name (.text missing)).map Json.display
  return "\n".intercalate
    [ "Tuning profile: " ++ (← shown profile "profile" "unknown"),
      "  Platform:        " ++ (← shown platform "os" "?") ++ " (" ++
        (← shown platform "cpu_count" "?") ++ " CPUs, fd limit " ++
        (← shown platform "fd_limit" "?") ++ ")",
      "  max_workers:     " ++ (← shown recommended "max_workers" "?"),
      "  max_concurrent:  " ++ (← shown recommended "max_concurrent" "?"),
      "  connector_limit: " ++ (← shown recommended "connector_limit" "?") ]

end UsageLedger.Tuning
