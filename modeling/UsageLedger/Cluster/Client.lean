/-
UsageLedger/Cluster/Client.lean

A client of a cluster.  Identities are looked up once: a client keeps those that
it knows, and whoever asks for one that is being looked up waits for that
lookup.  A lookup takes one request, and a second one if the first is refused.

Lookups that are under way go on one request at a time, in any order.  So the
client is a state, and `ask` and `advance` are its steps.  How many requests may be
under way at once is left out, for it only rules out some of these orders.
-/
import UsageLedger.Cluster.Identity
import UsageLedger.Cluster.Server

namespace UsageLedger.Cluster

/-- What a lookup asks next. -/
inductive Stage
  | expanding
  | finding
  deriving DecidableEq, Repr

/-- A lookup under way. -/
structure Lookup where
  id : String
  stage : Stage
  deriving DecidableEq, Repr

/-- The next request of a lookup. -/
def Lookup.request (l : Lookup) : Request :=
  match l.stage with
  | .expanding => .expand l.id
  | .finding => .find l.id

/-- The number of requests that a lookup may still make. -/
def Lookup.left (l : Lookup) : Nat :=
  match l.stage with
  | .expanding => 2
  | .finding => 1

/-- A client: the identities it knows, the lookups under way in the order in which they began, the
lookups that failed, its counters, and the requests made so far, latest first. -/
structure Client where
  cache : Catalog String Json
  underWay : List Lookup
  failed : Catalog String Fault
  hits : Nat
  misses : Nat
  sent : List Request

/-- How it stands with an identity. -/
inductive Standing
  | known (identity : Json)
  | failed (f : Fault)
  | pending

namespace Client

/-- A client that knows some identities. -/
def ofCache (cache : Catalog String Json) : Client := ⟨cache, [], [], 0, 0, []⟩

/-- The client at the start of a session: what it knows and has counted stays. -/
def newSession (c : Client) : Client := { c with underWay := [], failed := [] }

/-- Makes a request. -/
def send (site : Site) (c : Client) (r : Request) : Client × Except Fault Json :=
  ({ c with sent := r :: c.sent }, site.receive r)

/-! ### Lookups -/

/-- How it stands with an identity. -/
def standing (c : Client) (id : String) : Standing :=
  match c.cache.find? id with
  | some identity => .known identity
  | none =>
    match c.failed.find? id with
    | some f => .failed f
    | none => .pending

/-- Asks for an identity: a hit if it is known; else a miss, and the start of a lookup, unless there is
or has been one. -/
def ask (c : Client) (id : String) : Client :=
  match c.standing id with
  | .known _ => { c with hits := c.hits + 1 }
  | .failed _ => c
  | .pending =>
    if c.underWay.any (·.id = id) then c
    else { c with misses := c.misses + 1, underWay := c.underWay ++ [⟨id, .expanding⟩] }

/-- Ends a lookup. -/
def settle (c : Client) (id : String) : Except Fault Json → Client
  | .ok identity => { c with cache := c.cache.put id identity }
  | .error f => { c with failed := c.failed.put id f }

/-- What a reply to a lookup comes to: an identity, a fault, or a second request. -/
def Lookup.outcome? (l : Lookup) (reply : Except Fault Json) : Option (Except Fault Json) :=
  match l.stage, reply with
  | .expanding, .error (.network _) => none
  | .expanding, .error f => some (.error f)
  | .expanding, .ok body => some (ofExpansion l.id body)
  | .finding, reply => some (ofInquiry l.id reply)

/-- Makes the next request of the lookup at a place. -/
def advance (site : Site) (c : Client) (i : Nat) : Client :=
  match c.underWay[i]? with
  | none => c
  | some l =>
    let (c, reply) := c.send site l.request
    match Lookup.outcome? l reply with
    | some outcome => { c with underWay := c.underWay.eraseIdx i }.settle l.id outcome
    | none => { c with underWay := c.underWay.set i ⟨l.id, .finding⟩ }

/-- The number of requests that the lookups under way may still make. -/
def left (c : Client) : Nat := (c.underWay.map Lookup.left).sum

theorem left_advance (site : Site) (c : Client) (h : c.underWay ≠ []) :
    (c.advance site 0).left < c.left := by
  obtain ⟨cache, underWay, failed, hits, misses, sent⟩ := c
  match underWay, h with
  | l :: rest, _ =>
    simp only [advance, List.getElem?_cons_zero, List.eraseIdx_cons_zero, List.set_cons_zero, send]
    cases l with
    | mk id stage =>
      split
      · rename_i outcome _
        cases outcome <;> cases stage <;> simp [settle, left, Lookup.left]
      · rename_i h
        cases stage
        · simp [left, Lookup.left]
        · simp [Lookup.outcome?] at h

/-- Brings the lookups under way to an end, one after another, and tells which identities were settled,
in order.  If the user breaks off, the others stay where they are. -/
def finish (site : Site) (c : Client) : Client × List String :=
  match _h : c.underWay with
  | [] => (c, [])
  | l :: _ =>
    let c' := c.advance site 0
    match c'.standing l.id with
    | .failed .interrupted => (c', [l.id])
    | .pending => finish site c'
    | _ =>
      let (c'', settled) := finish site c'
      (c'', l.id :: settled)
termination_by c.left
decreasing_by all_goals exact left_advance site c (by simp [*])

/-- The identity with an id. -/
def identity (site : Site) (c : Client) (id : String) : Client × Except Fault Json :=
  let (c, _) := (c.ask id).finish site
  match c.standing id with
  | .known identity => (c, .ok identity)
  | .failed f => (c, .error f)
  | .pending => (c, .error .interrupted)

/-- The identity with an id by an inquiry alone, whatever the client knows. -/
def inquire (site : Site) (c : Client) (id : String) : Client × Except Fault Json :=
  let (c, reply) := c.send site (.find id)
  (c, ofInquiry id reply)

end Client

/-! ### Names -/

/-- A name asked for: known, or to be had once an identity is. -/
inductive Naming
  | awaited (id : String)
  | known (name : Json)

namespace Naming

/-- A name as far as it can be had from a client. -/
def poll (c : Client) : Naming → Except Fault Naming
  | known name => .ok (known name)
  | awaited id =>
    match c.standing id with
    | .known identity => (displayName identity).map known
    | .failed f => .error f
    | .pending => .ok (awaited id)

/-- Asks for the name that belongs to an id; without an id there is no name. -/
def ofId (c : Client) (id : Json) : Client × Except Fault Naming :=
  if id.isPresent then
    let c := c.ask id.display
    (c, (awaited id.display).poll c)
  else (c, .ok (known .null))

/-- The fault of a name that waits for an identity. -/
def faultOn? (c : Client) (id : String) : Naming → Option Fault
  | awaited id' =>
    if id' = id then
      match (awaited id').poll c with
      | .error f => some f
      | .ok _ => none
    else none
  | known _ => none

/-- The name, if it is known. -/
def name? : Naming → Option Json
  | known name => some name
  | awaited _ => none

end Naming

namespace Client

/-- Asks for the names of several ids before any lookup goes on. -/
def askAll (c : Client) : List Json → Client × List (Except Fault Naming)
  | [] => (c, [])
  | id :: rest =>
    let (c, naming) := Naming.ofId c id
    let (c, others) := c.askAll rest
    (c, naming :: others)

/-- Whether the user broke off one of some lookups. -/
def isInterrupted (c : Client) (ids : List String) : Bool :=
  ids.any fun id => c.failed.find? id = some .interrupted

/-- The names that belong to several ids, looked up at once.  The first fault in time is the one that
shows, but the lookups under way go on to their end.  Only the user breaks off at once. -/
def names (site : Site) (c : Client) (ids : List Json) : Client × Except Fault (List Json) :=
  let (c, asked) := c.askAll ids
  let (c, settled) := c.finish site
  let namings := asked.filterMap Except.toOption
  let early := asked.findSome? fun
    | .error f => some f
    | .ok _ => none
  let late := settled.findSome? fun id => namings.findSome? (Naming.faultOn? c id)
  let fault := if c.isInterrupted settled then some .interrupted else early.or late
  match fault with
  | some f => (c, .error f)
  | none =>
    let names := namings.mapM fun n => (n.poll c).map Naming.name?
    match names.map fun ns => ns.mapM id with
    | .ok (some ns) => (c, .ok ns)
    | .ok none => (c, .error .interrupted)
    | .error f => (c, .error f)

end Client

end UsageLedger.Cluster
