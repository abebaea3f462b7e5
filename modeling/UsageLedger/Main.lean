/-
UsageLedger/Main.lean

The program.  It looks at the files that a run needs, lets the run decide, writes
what is to be written, and prints.  If a file cannot be written the run decides
once more, knowing that.

There is no transport to clusters here: every cluster is out of reach.  The run is
decided at one moment, so no time passes on its clock.
-/
import Std.Time.Format
import Std.Time.Zoned
import UsageLedger.CommandLine.Run

open UsageLedger

/-- What stands at a place.  What is there but cannot be read counts as a directory. -/
def lookAt (path : String) : IO FileState := do
  try
    return .bytes (← IO.FS.readBinFile path).toList
  catch
    | .noFileOrDirectory .. => return .missing
    | _ => return .directory

/-- The text of a file of the system, empty if there is none. -/
def systemText (path : String) : IO String := do
  try IO.FS.readFile path
  catch _ => return ""

/-- What the machine tells about itself. -/
def thisMachine : IO Tuning.Machine := do
  let processors := ((← systemText "/proc/cpuinfo").splitOn "\n").countP (·.startsWith "processor")
  let limits := ((← systemText "/proc/self/limits").splitOn "\n").find? (·.startsWith "Max open files")
  let words := ((limits.getD "").splitOn " ").filter fun w => !w.isEmpty
  let linux := 0 < processors
  return {
    platform := if linux then "linux" else "unknown"
    usable? := none
    processors? := if linux then some processors else none
    openFiles? := (words[3]?.bind String.toNat?).map Int.ofNat }

/-- Writes files, and tells which ones could not be written. -/
def writeAll : List (String × String) → IO (List String)
  | [] => return []
  | (path, content) :: rest => do
    let failed ← try IO.FS.writeFile path content; pure []
      catch _ => pure [path]
    return failed ++ (← writeAll rest)

/-- Runs the program and returns its exit code. -/
def main (args : List String) : IO UInt32 := do
  let home? ← IO.getEnv "HOME"
  let profilePath := (← IO.appDir).toString ++ "/" ++ Tuning.fileName
  let profile ← lookAt profilePath
  let others ← (CommandLine.filesNeeded home? profile args).mapM fun path => return (path, ← lookAt path)
  let states := (profilePath, profile) :: others
  let now ← Std.Time.Timestamp.now
  let w : CommandLine.Surroundings :=
    { files := fun path => (states.lookup path).getD .missing
      writable := fun _ => true
      home? := home?
      facilities := .standard
      clock := .still (.whole now.toSecondsSinceUnixEpoch.val)
      date := (Std.Time.DateTime.ofTimestamp now Std.Time.TimeZone.ZoneRules.UTC).toISO8601String
      machine := ← thisMachine
      profilePath := profilePath
      server := .absent "no transport to clusters" }
  let hoped := CommandLine.execute w args
  let failed ← writeAll hoped.written
  let outcome :=
    if failed.isEmpty then hoped
    else CommandLine.execute { w with writable := fun path => !failed.contains path } args
  IO.print outcome.printed
  IO.eprint outcome.said
  match outcome.exit with
  | .code n => return n.toUInt32
  | .fault f =>
    IO.eprintln ("The data cannot be used. " ++ f.message)
    return 1
