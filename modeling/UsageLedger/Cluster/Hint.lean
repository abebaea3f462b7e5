/-
UsageLedger/Cluster/Hint.lean

What the user is told when a cluster refuses a request.  Some statuses have an
explanation and a hint; the others are shown as they are.
-/
import UsageLedger.Json.Display
import UsageLedger.Json.Lookup
import UsageLedger.Url.Basic

namespace UsageLedger.Cluster

/-- A title and a hint for a status, given the host and what was to be read. -/
def explained? (host subject : String) : Int → Option (String × String)
  | 401 =>
    some ("Authentication failed (401 Unauthorized)",
      "Your credentials may have expired. Run: qq --host " ++ host ++ " login")
  | 403 =>
    some ("Access denied (403 Forbidden)", "You don't have permission to read: " ++ subject)
  | 404 => some ("Not found (404)", "Path does not exist: " ++ subject)
  | 429 =>
    some ("Too many requests (429)",
      "The cluster is rate-limiting requests. Try reducing --max-concurrent")
  | 503 =>
    some ("Service unavailable (503)",
      "The cluster is temporarily unavailable. Please try again later")
  | _ => none

/-- The statuses that are explained. -/
def explainedStatuses : List Int := [401, 403, 404, 429, 503]

/-- The host in an address, or a placeholder. -/
def hostOf (url : Json) : Except Fault Json :=
  match url with
  | .text s => (Url.parse s).map fun u => (Json.text u.host).orElse (.text "<cluster>")
  | v => if v.isPresent then .error .noMember else .ok (.text "<cluster>")

/-- What is said about a refusal.  The path and the host may be missing: then the address stands for
the path, and the host is the one in the address. -/
def refusal (status url path host : Json) : Except Fault String := do
  let host ← if host.isPresent then pure host else hostOf url
  let subject := (path.orElse url).display
  match status with
  | .list _ => throw .wrongKind
  | .object _ => throw .wrongKind
  | status =>
    match (explainedStatuses.find? status.equalsInt).bind (explained? host.display subject) with
    | some (title, hint) => return "\n[ERROR] " ++ title ++ "\n[HINT] " ++ hint
    | none => return "\n[ERROR] HTTP " ++ status.display ++ ": " ++ url.display

end UsageLedger.Cluster
