/-
UsageLedger/Cluster/Walk.lean

Walks over a cluster.  A walk visits a path and everything below it.  It
consists of tasks: the request for the root, requests for pages of directories,
and entries that wait for the names of owner and group.  The lookups of the
client go on beside them.

A task waits whenever a request or a lookup is under way, and tasks may go on in
any order, so a walk is a state and each `Turn` that is possible takes it on.
`run` takes one possible turn after another.

The entries of one page are taken one after another; the directories among the
entries of a directory are listed when all its pages are done.
-/
import UsageLedger.Cluster.Entry
import UsageLedger.Cluster.Page

namespace UsageLedger.Cluster

/-- Where the reading of a page stands: the directory, the entries still to come, the page itself, and
the directories met so far among the entries. -/
structure Cursor where
  directory : String
  rest : List Json
  page : Json
  below : List String

/-- A name that an entry needs. -/
inductive Side
  | unasked (id : Json)
  | asked (naming : Naming)

/-- The name, if it is known. -/
def Side.name? : Side → Option Json
  | asked naming => naming.name?
  | unasked _ => none

/-- A part of a walk that waits. -/
inductive Task
  /-- For the attributes of the root. -/
  | root (path : String)
  /-- For a page of a directory, below which these directories are met so far. -/
  | page (directory : String) (after? : Option String) (below : List String)
  /-- For the names of owner and group of an entry: the root, or one on a page. -/
  | entry (e : Entry) (owner group : Side) (cursor? : Option Cursor)

/-- What may happen next: a task goes on, an entry asks for the name of its owner or group or takes
note of it, or a lookup makes its next request. -/
inductive Turn
  | task (i : Nat)
  | owner (i : Nat)
  | group (i : Nat)
  | lookup (i : Nat)

/-- A walk: the client, what happened, latest first, the tasks, and the fault that broke it off. -/
structure Walk where
  client : Client
  past : List Event
  tasks : List Task
  fault : Option Fault

namespace Walk

/-- A walk from a path on, in a new session of a client. -/
def start (c : Client) (path : String) : Walk := ⟨c.newSession, [], [.root path], none⟩

/-- The walk broken off by a fault.  The first one counts, but the user goes before all others. -/
def breakOff (w : Walk) (f : Fault) : Walk :=
  { w with fault := if f = .interrupted then some f else w.fault.or (some f) }

/-- The walk with more tasks. -/
def add (w : Walk) (tasks : List Task) : Walk := { w with tasks := w.tasks ++ tasks }

/-- The walk without the task at a place. -/
def drop (w : Walk) (i : Nat) : Walk := { w with tasks := w.tasks.eraseIdx i }

/-- The task that waits for the names of an entry. -/
def named (e : Entry) (cursor? : Option Cursor) : Task :=
  .entry e (.unasked (e.member "owner")) (.unasked (e.member "group")) cursor?

/-! ### Reading pages -/

/-- The next entry of a counted kind and what comes after it, after remarks on those left out. -/
def nextEntry (verbose : Bool) : List Json → List Event × Except Fault (Option (Entry × List Json))
  | [] => ([], .ok none)
  | v :: rest =>
    match Entry.ofJson v "" with
    | .error f => ([], .error f)
    | .ok e =>
      if e.kind.isCounted then ([], .ok (some (e, rest)))
      else
        let (remarks, next) := nextEntry verbose rest
        (if verbose then .remark e.skipped :: remarks else remarks, next)

/-- The tasks that follow a page: the next page, or the directories below. -/
def afterPage (c : Cursor) : Except Fault (List Task) :=
  (nextToken c.page).map fun
    | some token => [.page c.directory (some token) c.below]
    | none => c.below.map fun directory => .page directory none []

/-- Reads on to the next entry that is to be visited, or past the end of the page. -/
def readOn (verbose : Bool) (w : Walk) (c : Cursor) : Walk :=
  let (remarks, next) := nextEntry verbose c.rest
  let w := { w with past := remarks.reverse ++ w.past }
  match next with
  | .error f => w.breakOff f
  | .ok (some (e, rest)) => w.add [named e (some { c with rest := rest })]
  | .ok none =>
    match afterPage c with
    | .error f => w.breakOff f
    | .ok tasks => w.add tasks

/-- Reads a page from its first entry on. -/
def read (verbose : Bool) (w : Walk) (directory : String) (below : List String) (page : Json) : Walk :=
  match (filesOf page).bind Json.items with
  | .error f => w.breakOff f
  | .ok entries => w.readOn verbose ⟨directory, entries, page, below⟩

/-! ### Turns -/

/-- Records a visit, and goes on after it. -/
def arrive (verbose : Bool) (w : Walk) (v : Visit) (cursor? : Option Cursor) : Walk :=
  let w := if v.node.kind.isCounted then { w with past := .visit v :: w.past } else w
  let isDirectory := v.node.kind.isDirectory
  match cursor? with
  | some c => w.readOn verbose (if isDirectory then { c with below := c.below ++ [v.path] } else c)
  | none => if isDirectory then w.add [.page v.path none []] else w

/-- A task goes on; one that waits for names only when they are known. -/
def taskTurn? (site : Site) (verbose : Bool) (w : Walk) (i : Nat) : Option Walk :=
  match w.tasks[i]? with
  | none => none
  | some (.root path) =>
    let (c, reply) := w.client.attributes site path
    let w := { w.drop i with client := c }
    match reply.bind fun v => Entry.ofJson v path with
    | .error f => some (w.breakOff f)
    | .ok e => some (w.add [named e none])
  | some (.page directory after? below) =>
    let (c, reply) := w.client.page site directory pageLimit after?
    let w := { w.drop i with client := c }
    match reply with
    | .error f => some (w.breakOff f)
    | .ok page => some (w.read verbose directory below page)
  | some (.entry e owner group cursor?) =>
    match owner.name?, group.name? with
    | some owner, some group =>
      match e.visit owner group with
      | .error f => some ((w.drop i).breakOff f)
      | .ok v => some ((w.drop i).arrive verbose v cursor?)
    | _, _ => none

/-- A name is asked for, or taken note of once it is there. -/
def sideTurn? (c : Client) : Side → Option (Client × Except Fault Side)
  | .unasked id =>
    let (c, naming) := Naming.ofId c id
    some (c, naming.map .asked)
  | .asked (.awaited id) =>
    match c.standing id with
    | .pending => none
    | _ => some (c, ((Naming.awaited id).poll c).map .asked)
  | .asked (.known _) => none

/-- The walk after a turn on a name of the entry at a place, with the task that comes of it. -/
def withSide (w : Walk) (i : Nat) (turn : Client × Except Fault Side) (task : Side → Task) : Walk :=
  match turn with
  | (c, .ok side) => { w with client := c, tasks := w.tasks.set i (task side) }
  | (c, .error f) => ({ w with client := c }.drop i).breakOff f

/-- The walk after a turn, if the turn is possible. -/
def step? (site : Site) (verbose : Bool) (w : Walk) : Turn → Option Walk
  | .task i => w.taskTurn? site verbose i
  | .owner i =>
    match w.tasks[i]? with
    | some (.entry e owner group cursor?) =>
      (sideTurn? w.client owner).map fun t => w.withSide i t fun s => .entry e s group cursor?
    | _ => none
  | .group i =>
    match w.tasks[i]? with
    | some (.entry e owner group cursor?) =>
      (sideTurn? w.client group).map fun t => w.withSide i t fun s => .entry e owner s cursor?
    | _ => none
  | .lookup i =>
    match w.client.underWay[i]? with
    | none => none
    | some l =>
      let c := w.client.advance site i
      match c.standing l.id with
      | .failed .interrupted => some ({ w with client := c }.breakOff .interrupted)
      | _ => some { w with client := c }

/-! ### Running -/

/-- The first name that an entry can ask for or take note of. -/
def readySide? (c : Client) (i : Nat) : List Task → Option Turn
  | [] => none
  | .entry _ owner group _ :: rest =>
    if (sideTurn? c owner).isSome then some (.owner i)
    else if (sideTurn? c group).isSome then some (.group i)
    else readySide? c (i + 1) rest
  | _ :: rest => readySide? c (i + 1) rest

/-- The turn that is taken next: names first, then lookups, then the task that waits longest.  After a
fault only the lookups go on, and after the user broke off nothing does. -/
def nextTurn? (w : Walk) : Option Turn :=
  if w.fault = some .interrupted then none
  else
    match readySide? w.client 0 w.tasks with
    | some turn => some turn
    | none =>
      if !w.client.underWay.isEmpty then some (.lookup 0)
      else if w.fault.isSome || w.tasks.isEmpty then none
      else some (.task 0)

/-- Takes turns until none is left, at most so many. -/
def run (site : Site) (verbose : Bool) : Nat → Walk → Walk
  | 0, w => if w.nextTurn?.isNone then w else w.breakOff .endless
  | turns + 1, w =>
    match w.nextTurn?.bind (w.step? site verbose) with
    | none => w
    | some w => run site verbose turns w

/-- What the walk came to. -/
def traversal (w : Walk) : Traversal := ⟨w.past.reverse, w.fault⟩

end Walk

/-! ### Visiting -/

/-- The number of turns that is enough for any cluster. -/
def turnLimit : Nat := 10 ^ 12

/-- How the identities needed so far were come by. -/
def Client.summary (c : Client) : String :=
  "[INFO] Identity cache: " ++ toString c.hits ++ " hits, " ++ toString c.misses ++ " misses\n"

/-- Visits a path and everything below it in at most so many turns. -/
def Client.visit (site : Site) (turns : Nat) (verbose : Bool) (c : Client) (path : String) :
    Client × Traversal :=
  let w := (Walk.start c path).run site verbose turns
  let c := w.client
  if verbose && w.fault.isNone && 0 < c.hits + c.misses then
    (c, ⟨w.traversal.events ++ [.remark c.summary], none⟩)
  else (c, w.traversal)

end UsageLedger.Cluster
