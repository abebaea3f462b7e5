/-
UsageLedger/CommandLine/Options.lean

Options on the command line.  First every argument is told apart: a flag by its
full name or by a part that only one long name begins with, a flag with a value
attached, or an operand.  Then flags are taken in order.  A flag with a value
takes the attached one or the operand after it; short flags without values may
be written as a cluster.  The program has no operands of its own, so any that is
left over is refused, but only after everything else.
-/
import UsageLedger.Credentials
import UsageLedger.Report.Selection
import UsageLedger.Tuning.Recommendation
import UsageLedger.Tuning.Settings

namespace UsageLedger.CommandLine

/-- What can be said on the command line. -/
inductive Flag
  | help
  | snapshot
  | host
  | port
  | credentialsStore
  | path
  | sort
  | userFilter
  | bucketBorders
  | maxWorkers
  | maxConcurrent
  | connectorLimit
  | tune
  | progress
  | verbose
  deriving DecidableEq, Repr

namespace Flag

/-- The long name of a flag. -/
def longName : Flag → String
  | help => "--help"
  | snapshot => "--snapshot"
  | host => "--host"
  | port => "--port"
  | credentialsStore => "--credentials-store"
  | path => "--path"
  | sort => "--sort"
  | userFilter => "--user-filter"
  | bucketBorders => "--bucket-borders"
  | maxWorkers => "--max-workers"
  | maxConcurrent => "--max-concurrent"
  | connectorLimit => "--connector-limit"
  | tune => "--tune"
  | progress => "--progress"
  | verbose => "--verbose"

/-- All flags. -/
def all : List Flag :=
  [ help, snapshot, host, port, credentialsStore, path, sort, userFilter, bucketBorders, maxWorkers,
    maxConcurrent, connectorLimit, tune, progress, verbose ]

/-- The flag with a long name. -/
def ofLong? (name : String) : Option Flag := all.find? fun f => f.longName == name

/-- The flag with a letter. -/
def ofLetter? : Char → Option Flag
  | 'h' => some help
  | 'v' => some verbose
  | _ => none

/-- Whether a flag takes a value. -/
def takesValue : Flag → Bool
  | help => false
  | progress => false
  | verbose => false
  | _ => true

end Flag

/-! ### Telling arguments apart -/

/-- What an argument is. -/
inductive Argument
  /-- A flag, perhaps with a value after an equals sign. -/
  | flag (f : Flag) (value? : Option String)
  /-- A flag by its letter, with whatever follows the letter. -/
  | cluster (f : Flag) (rest : List Char)
  | operand (text : String)
  /-- Something that looks like a flag but is none, or the mark after which all are operands. -/
  | stray

/-- Why options are not used: the arguments are wrong, or help is asked for. -/
inductive Ending
  | misuse
  | help
  deriving DecidableEq, Repr

/-- Whether an argument looks like a negative number. -/
def isNegativeNumber (cs : List Char) : Bool :=
  match cs with
  | '-' :: rest =>
    let body := if rest.getLast? == some '\n' then rest.dropLast else rest
    let fraction := body.dropWhile Text.isDecimalDigit
    match fraction with
    | [] => !body.isEmpty
    | '.' :: digits => !digits.isEmpty && digits.all Text.isDecimalDigit
    | _ => false
  | _ => false

/-- The text before the first equals sign, and the text after it if there is one. -/
def splitValue (cs : List Char) : String × Option String :=
  match cs.dropWhile (· != '=') with
  | [] => (String.ofList cs, none)
  | _ :: value => (String.ofList (cs.takeWhile (· != '=')), some (String.ofList value))

/-- An argument that begins with a dash but is no known flag. -/
def unknown (text : String) : Argument :=
  if isNegativeNumber text.toList || text.contains ' ' then .operand text else .stray

/-- An argument that begins with two dashes.  A part of a name has to fit one flag alone. -/
def ofLongText (text : String) : Except Ending Argument :=
  let (name, value?) := splitValue text.toList
  match Flag.ofLong? name with
  | some f => .ok (.flag f value?)
  | none =>
    match Flag.all.filter fun f => f.longName.startsWith name with
    | [] => .ok (unknown text)
    | [f] => .ok (.flag f value?)
    | _ => .error .misuse

/-- An argument that begins with a single dash. -/
def ofShortText (text : String) (letter : Char) (rest : List Char) : Argument :=
  match Flag.ofLetter? letter, rest with
  | some f, [] => .flag f none
  | some f, '=' :: value => .flag f (some (String.ofList value))
  | some f, rest => .cluster f rest
  | none, _ => unknown text

/-- What an argument is. -/
def Argument.ofText (text : String) : Except Ending Argument :=
  match text.toList with
  | '-' :: '-' :: _ => ofLongText text
  | '-' :: letter :: rest => .ok (ofShortText text letter rest)
  | _ => .ok (.operand text)

/-- What the arguments are, one by one; after a bare double dash all are operands. -/
def arguments : List String → Except Ending (List Argument)
  | [] => .ok []
  | "--" :: rest => .ok (.stray :: rest.map .operand)
  | text :: rest => do
    let first ← Argument.ofText text
    return first :: (← arguments rest)

/-! ### Taking options -/

/-- What is said on the command line. -/
structure Options where
  snapshot : String
  host : String
  port : Int
  credentialsStore : String
  paths : List String
  sort : SortMetric
  userFilter : String
  bucketBorders : String
  maxWorkers : Int
  maxConcurrent : Int
  connectorLimit : Int
  tune : Option Tuning.Style
  progress : Bool
  verbose : Nat

namespace Options

/-- The options if nothing is said, under given settings. -/
def standard (s : Tuning.Settings) : Options :=
  { snapshot := ""
    host := ""
    port := 8000
    credentialsStore := Credentials.fileName
    paths := []
    sort := .blocks
    userFilter := ""
    bucketBorders := ""
    maxWorkers := s.workers.value
    maxConcurrent := s.requests.value
    connectorLimit := s.connections.value
    tune := none
    progress := false
    verbose := 0 }

/-- A whole number as a value. -/
def number (value : String) : Except Ending Int :=
  match Number.integer? value with
  | .ok n => .ok n
  | .error _ => .error .misuse

/-- One of some choices as a value. -/
def choice {α : Type} (all : List α) (name : α → String) (value : String) : Except Ending α :=
  match all.find? fun a => name a == value with
  | some a => .ok a
  | none => .error .misuse

/-- The options after a flag with a value. -/
def withValue (o : Options) (f : Flag) (value : String) : Except Ending Options :=
  match f with
  | .snapshot => .ok { o with snapshot := value }
  | .host => .ok { o with host := value }
  | .port => (number value).map fun n => { o with port := n }
  | .credentialsStore => .ok { o with credentialsStore := value }
  | .path => .ok { o with paths := o.paths ++ [value] }
  | .sort => (choice SortMetric.all SortMetric.name value).map fun m => { o with sort := m }
  | .userFilter => .ok { o with userFilter := value }
  | .bucketBorders => .ok { o with bucketBorders := value }
  | .maxWorkers => (number value).map fun n => { o with maxWorkers := n }
  | .maxConcurrent => (number value).map fun n => { o with maxConcurrent := n }
  | .connectorLimit => (number value).map fun n => { o with connectorLimit := n }
  | .tune => (choice Tuning.Style.all Tuning.Style.name value).map fun s => { o with tune := some s }
  | .help => .error .misuse
  | .progress => .error .misuse
  | .verbose => .error .misuse

/-- The options after a flag without a value. -/
def withFlag (o : Options) (f : Flag) : Except Ending Options :=
  match f with
  | .help => .error .help
  | .progress => .ok { o with progress := true }
  | .verbose => .ok { o with verbose := o.verbose + 1 }
  | _ => .error .misuse

/-- The options after several flags without values. -/
def withFlags (o : Options) : List Flag → Except Ending Options
  | [] => .ok o
  | f :: rest => (o.withFlag f).bind (·.withFlags rest)

end Options

/-- The flags of a cluster after the first, and whether something is left over that is no flag. -/
def clusterFlags : List Char → Except Ending (List Flag × Bool)
  | [] => .ok ([], false)
  | c :: rest =>
    if c == '-' || c == '=' then .error .misuse
    else
      match Flag.ofLetter? c with
      | some f => (clusterFlags rest).map fun (flags, strays) => (f :: flags, strays)
      | none => .ok ([], true)

/-- Takes arguments in order; tells whether any was left over. -/
def take (o : Options) : List Argument → Except Ending (Options × Bool)
  | [] => .ok (o, false)
  | .operand _ :: rest => (take o rest).map fun (o, _) => (o, true)
  | .stray :: rest => (take o rest).map fun (o, _) => (o, true)
  | .flag f (some value) :: rest => do take (← o.withValue f value) rest
  | .flag f none :: .operand value :: rest =>
    if f.takesValue then do take (← o.withValue f value) rest
    else do
      let (o, _) ← take (← o.withFlag f) rest
      return (o, true)
  | .flag f none :: rest => do take (← o.withFlag f) rest
  | .cluster f letters :: rest => do
    let (flags, strays) ← clusterFlags letters
    let (o, more) ← take (← o.withFlags (f :: flags)) rest
    return (o, strays || more)

/-- The options that arguments give, under given settings. -/
def Options.parse (s : Tuning.Settings) (args : List String) : Except Ending Options := do
  let (o, strays) ← take (.standard s) (← arguments args)
  if strays then throw .misuse
  return o

/-! ### Usage -/

/-- The first line about the use of the program. -/
def usageLine : String :=
  "usage: usagewalk [-h] [--snapshot FILE | --host HOST] [--path PATH] [options]\n"

/-- All about the use of the program. -/
def helpText : String :=
  usageLine ++ String.join
    [ "\nFilesystem usage summary by group and user\n",
      "\nSource (one of --snapshot and --host is required):\n",
      "  --snapshot FILE           JSON-lines snapshot file to summarize\n",
      "  --host HOST               cluster hostname or address\n",
      "  --port PORT               cluster port (default: 8000)\n",
      "  --credentials-store FILE  file with the bearer token (default: ~/.qfsd_cred)\n",
      "  --path PATH               directory to summarize (repeatable, default: /)\n",
      "\nReport:\n",
      "  --sort METRIC             blocks, files, directories or fileSize (default: blocks)\n",
      "  --user-filter PATTERN     only show users whose name matches\n",
      "  --bucket-borders SIZES    comma separated file size bucket borders\n",
      "\nPerformance:\n",
      "  --max-workers N           snapshot visitors at once\n",
      "  --max-concurrent N        cluster requests at once\n",
      "  --connector-limit N       cluster connections at once\n",
      "  --tune STYLE              write a tuning profile for this machine and exit\n",
      "\nOutput:\n",
      "  --progress                show progress while visiting\n",
      "  -v, --verbose             informational messages; repeat for debug messages\n" ]

end UsageLedger.CommandLine
