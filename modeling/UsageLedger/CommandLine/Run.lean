/-
UsageLedger/CommandLine/Run.lean

Runs of the program.  A run is a function of its arguments and of what is around
it: files, the readings of the clock, the machine and a cluster.  What it comes to is an outcome:
the texts that it prints and says, the files that it writes, and how it ends.

The paths of a run are reported one after another.  A path that cannot be
reported is passed over; other faults break the run off.
-/
import UsageLedger.Cluster.Account
import UsageLedger.Cluster.Hint
import UsageLedger.Cluster.Walk
import UsageLedger.CommandLine.Options
import UsageLedger.IdentityStore
import UsageLedger.Report.Collector
import UsageLedger.Report.Table
import UsageLedger.Snapshot.Visit
import UsageLedger.Tuning.Profile

namespace UsageLedger.CommandLine

open Number

/-- What the clock shows in the course of a run, in seconds. -/
structure RunClock where
  /-- When the identities of earlier runs are read. -/
  loading : Quantity
  /-- While each of the paths is reported, the first one first. -/
  reports : Nat → Timing
  /-- When the identities are kept for the next run. -/
  saving : Quantity

/-- No time passes. -/
def RunClock.still (now : Quantity) : RunClock := ⟨now, fun _ => .still now, now⟩

/-- What is around a run. -/
structure Surroundings where
  files : String → FileState
  /-- Whether a file can be written. -/
  writable : String → Bool
  home? : Option String
  facilities : Facilities
  clock : RunClock
  /-- The date on which the run begins. -/
  date : String
  machine : Tuning.Machine
  profilePath : String
  server : Cluster.Server

/-- How a run ends. -/
inductive Exit
  | code (n : Nat)
  /-- A fault that the run is not prepared for. -/
  | fault (f : Fault)
  deriving DecidableEq, Repr

/-- What a run comes to. -/
structure Outcome where
  exit : Exit
  printed : String
  said : String
  /-- The files written, with their content. -/
  written : List (String × String)

namespace Outcome

/-- A run that only says something. -/
def refused (code : Nat) (said : String) : Outcome := ⟨.code code, "", said, []⟩

/-- A run that breaks off. -/
def broken (f : Fault) (printed said : String) : Outcome :=
  match f with
  | .interrupted => ⟨.code 130, printed, said ++ "\n[INFO] Interrupted by user\n", []⟩
  | f => ⟨.fault f, printed, said, []⟩

end Outcome

/-- A reading of the clock in whole seconds. -/
def wholeSeconds : Quantity → Int
  | .whole n => n
  | .real x => x.truncate?.getD 0

/-- The whole second in which the identities of earlier runs are read. -/
def Surroundings.loadSecond (w : Surroundings) : Int := wholeSeconds w.clock.loading

/-- The whole second in which the identities are kept for the next run. -/
def Surroundings.saveSecond (w : Surroundings) : Int := wholeSeconds w.clock.saving

/-! ### Preparing -/

/-- What the paths of a run are looked up in. -/
inductive Source
  | snapshot (tree : Snapshot.Tree) (workers : Int)
  | cluster (site : Cluster.Site) (client : Cluster.Client)

/-- Visits a path and everything below it. -/
def Source.visit (verbose : Bool) (path : String) : Source → Source × Traversal
  | snapshot tree workers => (snapshot tree workers, tree.visit workers path)
  | cluster site client =>
    let (client, t) := client.visit site Cluster.turnLimit verbose path
    (cluster site client, t)

/-- Why a run does not begin. -/
inductive Refusal
  | fault (f : Fault)
  | noCredentials (path host : String)

/-- The outcome of a run that does not begin, after what is said before. -/
def Refusal.outcome (said : String) : Refusal → Outcome
  | noCredentials path host =>
    .refused 2 (said ++ "Error: No credentials found in " ++ path ++ ". Run: qq --host " ++ host ++
      " login\n")
  | fault f =>
    match f with
    | .invalid why => .refused 2 (said ++ "Error: " ++ why.message ++ "\n")
    | .snapshot why => .refused 1 (said ++ "\n[ERROR] " ++ why.message ++ "\n")
    | .store why => .refused 1 (said ++ "\n[ERROR] " ++ why.message ++ "\n")
    | f => .broken f "" said

/-- The account that the options name. -/
def Options.account (o : Options) (token : String) : Cluster.Account :=
  ⟨o.host, o.port, token, o.connectorLimit⟩

/-- The token for the cluster. -/
def token (w : Surroundings) (o : Options) : Except Refusal String :=
  let isDirectory (path : String) : Bool :=
    match w.files path with
    | .directory => true
    | _ => false
  match Credentials.path w.home? isDirectory o.credentialsStore with
  | .error f => .error (.fault f)
  | .ok path =>
    match Credentials.token? (w.files path) with
    | some t => if t.isEmpty then .error (.noCredentials path o.host) else .ok t
    | none => .error (.noCredentials path o.host)

/-- The source that the options name, after what is said on the way. -/
def source (w : Surroundings) (o : Options) : String × Except Refusal Source :=
  let verbose := o.verbose != 0
  if !o.snapshot.isEmpty then
    let (said, tree) := Snapshot.load w.facilities.showing verbose o.snapshot (w.files o.snapshot)
    (said, (tree.mapError .fault).map fun tree => .snapshot tree o.maxWorkers)
  else
    match token w o with
    | .error r => ("", .error r)
    | .ok t =>
      let file := IdentityStore.fileName
      let (said, cache) := IdentityStore.load verbose file (w.files file) w.loadSecond
      let site := (o.account t).site w.server
      (said, (cache.mapError .fault).map fun cache => .cluster site (.ofCache cache))

/-- How reports are made and shown. -/
structure Layout where
  options : ReportOptions
  borders : Borders

/-- The layout that the options name. -/
def layout (facilities : Facilities) (o : Options) : Except Fault Layout := do
  let filter ← NameFilter.ofJson facilities (.text o.userFilter)
  let borders ← if o.bucketBorders.isEmpty then pure .standard else Borders.parse o.bucketBorders
  return ⟨⟨o.sort, filter⟩, borders⟩

/-! ### Reporting -/

/-- What a path adds to a run. -/
structure Section where
  printed : String
  said : String
  failed : Bool
  fault : Option Fault

/-- What is said about a path that cannot be reported; a fault that is none of the path goes on. -/
def failure (o : Options) (path : String) : Fault → Except Fault String
  | .snapshot why => .ok ("\n[ERROR] " ++ why.message ++ "\n")
  | .network (.refused status _ url) =>
    (Cluster.refusal (.int status) (.text url) (.text path) .null).map (· ++ "\n")
  | .network (.unreachable detail) =>
    .ok ("\n[ERROR] Cannot connect to cluster: " ++ o.host ++ ":" ++ toString o.port ++ "\n" ++
      "[HINT] Check that the cluster is reachable and the hostname/port are correct\n" ++
      if o.verbose = 0 then "" else "[DEBUG] " ++ detail ++ "\n")
  | .network (.broken detail) =>
    .ok ("\n[ERROR] Network error while visiting " ++ path ++ ": " ++ detail ++ "\n")
  | .invalid why =>
    .ok ("\n[ERROR] Invalid response while visiting " ++ path ++ ": " ++ why.message ++ "\n")
  | f => .error f

/-- Reports a traversal. -/
def sectionOf (timing : Timing) (o : Options) (l : Layout) (path : String) (t : Traversal) : Section :=
  let settings : ReportSettings := ⟨o.verbose, timing, o.progress⟩
  match settings.report l.borders path t with
  | (said, .ok r) =>
    let (printed, fault) := r.print l.options
    ⟨printed, said, false, fault⟩
  | (said, .error f) =>
    match failure o path f with
    | .ok text => ⟨"", said ++ text, true, none⟩
    | .error f => ⟨"", said, false, some f⟩

/-- Reports paths one after another, up to a fault that breaks the run off. -/
def sections (o : Options) (l : Layout) :
    (Nat → Timing) → Source → List String → Source × List Section
  | _, s, [] => (s, [])
  | timings, s, path :: rest =>
    let (s, t) := s.visit (o.verbose != 0) path
    let first := sectionOf (timings 0) o l path t
    if first.fault.isSome then (s, [first])
    else
      let (s, others) := sections o l (fun i => timings (i + 1)) s rest
      (s, first :: others)

/-! ### Ending -/

/-- The identities that are kept for the next run. -/
def resolved : Catalog String Json → Except Fault (Catalog String Json)
  | [] => .ok []
  | (id, identity) :: rest => do
    let keep ← identity.member "resolved"
    let others ← resolved rest
    return if keep.isPresent then (id, identity) :: others else others

/-- What is kept for the next run: what is said about it, and the files written. -/
def kept (w : Surroundings) (verbose : Bool) : Source → Except Fault (String × List (String × String))
  | .snapshot _ _ => .ok ("", [])
  | .cluster _ client =>
    (resolved client.cache).map fun identities =>
      let file := IdentityStore.fileName
      let saved := w.writable file
      (if verbose then IdentityStore.saveMessage saved identities else "",
        if saved then [(file, IdentityStore.content identities w.saveSecond)] else [])

/-- Reports the paths that the options name. -/
def report (w : Surroundings) (o : Options) (l : Layout) (s : Source) (said : String) : Outcome :=
  let paths := if o.paths.isEmpty then ["/"] else o.paths
  let (s, parts) := sections o l w.clock.reports s paths
  let printed := String.join (parts.map Section.printed)
  let said := said ++ String.join (parts.map Section.said)
  match parts.findSome? Section.fault with
  | some f => .broken f printed said
  | none =>
    match kept w (o.verbose != 0) s with
    | .error f => .broken f printed said
    | .ok (remark, written) =>
      let failures := parts.countP Section.failed
      let count :=
        if failures = 0 || o.verbose = 0 then ""
        else "[INFO] " ++ toString failures ++ " of " ++ toString paths.length ++ " paths failed\n"
      ⟨.code (if failures = 0 then 0 else 1), printed, said ++ remark ++ count, written⟩

/-! ### Whole runs -/

/-- Writes a tuning profile. -/
def tune (w : Surroundings) (s : Tuning.Style) : Outcome :=
  match Tuning.profile w.machine s.name w.date with
  | .error f => .broken f "" ""
  | .ok profile =>
    if !w.writable w.profilePath then
      .refused 1 ("Error: Could not write tuning profile to " ++ w.profilePath ++ "\n")
    else
      let written := [(w.profilePath, profile.indented)]
      match Tuning.summary profile with
      | .error f => { Outcome.broken f "" "" with written := written }
      | .ok text => ⟨.code 0, text ++ "\n", "", written⟩

/-- What is wrong with the options as a whole. -/
def Options.objection? (o : Options) : Option String :=
  if o.snapshot.isEmpty = o.host.isEmpty then
    some "Error: Exactly one of --snapshot or --host is required\n"
  else if o.maxWorkers < 1 || o.maxConcurrent < 1 || o.connectorLimit < 1 then
    some "Error: --max-workers, --max-concurrent and --connector-limit must be positive\n"
  else none

/-- A run under options. -/
def run (w : Surroundings) (o : Options) : Outcome :=
  match layout w.facilities o with
  | .error f => Refusal.outcome "" (.fault f)
  | .ok l =>
    match source w o with
    | (said, .error r) => r.outcome said
    | (said, .ok s) => report w o l s said

/-- The settings under the tuning profile in a file. -/
def settingsIn (profile : FileState) : Except Fault Tuning.Settings :=
  Tuning.Settings.ofProfile ((Tuning.loadProfile? profile).getD .null)

/-- The files that a run may look at, the tuning profile apart. -/
def filesNeeded (home? : Option String) (profile : FileState) (args : List String) : List String :=
  match settingsIn profile with
  | .error _ => []
  | .ok settings =>
    match Options.parse settings args with
    | .error _ => []
    | .ok o =>
      [o.snapshot, IdentityStore.fileName] ++
        (Credentials.path home? (fun _ => false) o.credentialsStore).toOption.toList

/-- What the program does with its arguments. -/
def execute (w : Surroundings) (args : List String) : Outcome :=
  match settingsIn (w.files w.profilePath) with
  | .error f => .broken f "" ""
  | .ok settings =>
    match Options.parse settings args with
    | .error .help => ⟨.code 0, helpText, "", []⟩
    | .error .misuse => .refused 2 (usageLine ++ "usagewalk: error: the arguments cannot be used\n")
    | .ok o =>
      match o.tune, o.objection? with
      | some style, _ => tune w style
      | none, some objection => .refused 2 objection
      | none, none => run w o

end UsageLedger.CommandLine
