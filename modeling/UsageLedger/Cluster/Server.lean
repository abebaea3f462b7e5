/-
UsageLedger/Cluster/Server.lean

Requests to a cluster and what comes back.  A server is a function from requests
to replies, so a client can be run and reasoned about without a network.

Paths in requests are absolute.  In the address of a request the path is one
encoded part, slashes included.
-/
import UsageLedger.Fault
import UsageLedger.Json.Basic
import UsageLedger.Url.Percent

namespace UsageLedger.Cluster

/-- What a client asks of a cluster. -/
inductive Request
  /-- The attributes of a file or directory. -/
  | attributes (path : String)
  /-- A page of a directory: the first one, or the one after a token. -/
  | entries (path : String) (limit : Int) (after? : Option String)
  /-- An identity together with its equivalents. -/
  | expand (id : String)
  /-- An identity alone. -/
  | find (id : String)
  deriving DecidableEq, Repr

/-- What a request is answered with. -/
inductive Reply
  /-- A status, its reason, and the body or why it cannot be decoded. -/
  | answer (status : Int) (reason : String) (body : Except String Json)
  | broken (detail : String)
  | unreachable (detail : String)
  /-- The user breaks off while the request is under way. -/
  | interrupted

/-- What a cluster does with requests. -/
abbrev Server := Request → Reply

/-- The server that is not there. -/
def Server.absent (detail : String) : Server := fun _ => .unreachable detail

namespace Request

/-- A path from the root on. -/
def absolute (path : String) : String := if path.startsWith "/" then path else "/" ++ path

/-- Asks for the attributes of a path. -/
def attributesOf (path : String) : Request := attributes (absolute path)

/-- Asks for a page of a directory; an empty token stands for the first page. -/
def pageOf (path : String) (limit : Int) (after? : Option String) : Request :=
  entries (absolute path) limit (after?.filter fun token => !token.isEmpty)

/-- The address of a request below that of the service. -/
def address : Request → String
  | attributes path => "files/" ++ Url.encode path ++ "/info/attributes"
  | entries path _ _ => "files/" ++ Url.encode path ++ "/entries/"
  | expand _ => "identity/expand"
  | find _ => "identity/find"

end Request

/-- A server and the address at which it is reached. -/
structure Site where
  base : String
  server : Server

namespace Site

/-- The full address of a request. -/
def url (s : Site) (r : Request) : String := s.base ++ "/v1/" ++ r.address

/-- The body that a request is answered with.  A status of 400 or more is a refusal, whatever the
body. -/
def receive (s : Site) (r : Request) : Except Fault Json :=
  match s.server r with
  | .answer status reason body =>
    if 400 ≤ status then .error (.network (.refused status reason (s.url r)))
    else
      match body with
      | .ok v => .ok v
      | .error detail => .error (.invalid (.body detail))
  | .broken detail => .error (.network (.broken detail))
  | .unreachable detail => .error (.network (.unreachable detail))
  | .interrupted => .error .interrupted

end Site

end UsageLedger.Cluster
