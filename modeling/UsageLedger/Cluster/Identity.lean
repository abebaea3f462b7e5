/-
UsageLedger/Cluster/Identity.lean

Identities of users and groups.  An identity is a record from the cluster.  Its
display name is the name under which usage is reported; an identity of a POSIX
domain without a proper name goes by its number.

An expansion brings an identity together with its equivalents in other domains;
the name of the best-ranked equivalent is used where the identity has none.
-/
import UsageLedger.Json.Display
import UsageLedger.Json.Lookup

namespace UsageLedger.Cluster

/-! ### Display names -/

/-- The name of an identity that has none. -/
def nameless : String := "Unknown"

/-- An identity by its number, if its domain has numbers and it has one. -/
def numbered? (members : Catalog String Json) : Option String :=
  let domain := (members.find? "domain").getD (.text "UNKNOWN")
  if domain == .text "POSIX_USER" then (members.find? "uid").map fun n => "UID " ++ n.display
  else if domain == .text "POSIX_GROUP" then (members.find? "gid").map fun n => "GID " ++ n.display
  else none

/-- Whether a name is none or stands in for one. -/
def isPlaceholder (name : Json) : Except Fault Bool :=
  if name.isPresent then name.asText.map (·.startsWith nameless) else .ok true

/-- The name under which an identity is reported. -/
def displayName (identity : Json) : Except Fault Json := do
  if !identity.isPresent then return .text nameless
  let members ← identity.members
  let name := ((members.find? "name").getD .null).orElse (.text "")
  match numbered? members with
  | some number => if ← isPlaceholder name then return .text number else return name
  | none => return name.orElse (.text nameless)

/-! ### Expansions -/

/-- The rank of a domain, best first. -/
def rank (domain : Json) : Nat :=
  if domain == .text "ACTIVE_DIRECTORY" then 0
  else if domain == .text "LOCAL" then 1
  else if domain == .text "POSIX_USER" || domain == .text "POSIX_GROUP" then 2
  else 3

/-- The records among which a name is looked for, best rank first. -/
def ranked (equivalents : Json) : Except Fault (List (Catalog String Json)) := do
  let records ← (← equivalents.items).mapM Json.members
  let rankOf (r : Catalog String Json) : Nat := rank ((r.find? "domain").getD (.text ""))
  return records.mergeSort fun a b => decide (rankOf a ≤ rankOf b)

/-- An identity with the name and the domain of the best equivalent that has a name. -/
def withEquivalent (identity : Catalog String Json) (records : List (Catalog String Json)) :
    Catalog String Json :=
  let nameOf (r : Catalog String Json) : Json := (r.find? "name").getD .null
  match records.find? fun r => (nameOf r).isPresent with
  | some r =>
    (identity.put "name" (nameOf r)).put "display_domain" ((r.find? "domain").getD .null)
  | none => identity

/-- Whether a value cannot be the name of a member. -/
def isContainer : Json → Bool
  | .list _ => true
  | .object _ => true
  | _ => false

/-- The fault of an item that is to be a member given as a pair. -/
def pairFault? (index : Nat) (item : Json) : Option Fault :=
  match item.items with
  | .error f => some f
  | .ok [name, _] => if isContainer name then some .wrongKind else none
  | .ok parts => some (.invalid (.notAPair index parts.length))

/-- The fault of a value that stands in for an identity.  It is taken for a sequence of members first,
and at last asked for its name. -/
def strayFault (v : Json) : Fault :=
  match v.items with
  | .error f => f
  | .ok items => (items.zipIdx.findSome? fun (item, i) => pairFault? i item).getD .noMember

/-- The identity that an expansion of an id brings. -/
def ofExpansion (id : String) (body : Json) : Except Fault Json := do
  match ← body.memberOr "id" (.object []) with
  | .object primary =>
    let identity := Catalog.put "resolved" (.bool true) (Catalog.put "auth_id" (.text id) primary)
    if ((Catalog.find? "name" primary).getD .null).isPresent then return .object identity
    let records ← ranked (← body.memberOr "equivalent_ids" (.list []))
    return .object (withEquivalent identity records)
  | v => throw (strayFault v)

/-! ### Inquiries -/

/-- The name that shows an id that could not be resolved. -/
def unresolvedName (id : String) : String := nameless ++ " (auth_id: " ++ id ++ ")"

/-- The identity that an inquiry for an id brings.  An id that the cluster does not know and an
inquiry that fails on the way both have a record, marked as not resolved. -/
def ofInquiry (id : String) : Except Fault Json → Except Fault Json
  | .ok body =>
    match body with
    | .object members => .ok (.object (Catalog.put "resolved" (.bool true) members))
    | _ => .error .wrongKind
  | .error (.network (.refused 404 _ _)) =>
    .ok (.object
      [ ("domain", .text "UNKNOWN"), ("auth_id", .text id), ("name", .text (unresolvedName id)),
        ("resolved", .bool false) ])
  | .error (.network why) =>
    .ok (.object
      [ ("domain", .text "ERROR"), ("auth_id", .text id), ("name", .text (unresolvedName id)),
        ("error", .text why.message), ("resolved", .bool false) ])
  | .error f => .error f

end UsageLedger.Cluster
