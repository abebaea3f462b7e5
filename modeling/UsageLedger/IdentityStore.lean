/-
UsageLedger/IdentityStore.lean

The file that keeps resolved identities between runs.  It is an object from ids
to records of an identity and the second in which it was written.  Identities
older than a lifetime are not taken from it.
-/
import UsageLedger.Files
import UsageLedger.Json.Lookup
import UsageLedger.Json.Printer

namespace UsageLedger.IdentityStore

open Number

/-- The name of the file. -/
def fileName : String := "usagewalk_resolved_identities"

/-- For how many seconds an identity may be taken from the file. -/
def lifetime : Int := 15 * 60

/-! ### Loading -/

/-- Whether a record written at a time is too old. -/
def isExpired (now : Int) (written : Json) : Except Fault Bool := do
  match (Quantity.whole now).sub? (← written.asQuantity) with
  | some age => return age.above (.whole lifetime)
  | none => throw .outOfRange

/-- The identities among records that are not too old, and how many are. -/
def current (now : Int) : Catalog String Json → Except Fault (Catalog String Json × Nat)
  | [] => .ok ([], 0)
  | (id, record) :: rest => do
    let expired ← isExpired now (← record.memberOr "timestamp" (.int 0))
    let identity ← record.memberOr "identity" (.object [])
    let (identities, count) ← current now rest
    return if expired then (identities, count + 1) else ((id, identity) :: identities, count)

/-- What loading says: how many identities there are, and how many were too old. -/
def loadMessage (file : String) (identities : Catalog String Json) (expired : Nat) : String :=
  (if identities.isEmpty then ""
    else "[INFO] Loaded " ++ toString identities.length ++ " cached identities from " ++ file ++ "\n") ++
  (if expired = 0 then ""
    else "[INFO] Ignored " ++ toString expired ++ " expired cache entries\n")

/-- The identities in a file, after what is said on the way.  A file that is missing or cannot be
decoded has none. -/
def load (verbose : Bool) (file : String) (state : FileState) (now : Int) :
    String × Except Fault (Catalog String Json) :=
  if !state.isPresent then ("", .ok [])
  else
    match state.json? with
    | none => (if verbose then "[WARN] Failed to load identity cache\n" else "", .ok [])
    | some v =>
      match v.members.bind (current now) with
      | .error f => ("", .error f)
      | .ok (identities, expired) =>
        (if verbose then loadMessage file identities expired else "", .ok identities)

/-! ### Saving -/

/-- The record of an identity at a time. -/
def record (now : Int) (identity : Json) : Json :=
  .object [("identity", identity), ("timestamp", .int now)]

/-- The content of the file for some identities at a time. -/
def content (identities : Catalog String Json) (now : Int) : String :=
  (Json.object (identities.map fun (id, identity) => (id, record now identity))).indented

/-- What saving says. -/
def saveMessage (saved : Bool) (identities : Catalog String Json) : String :=
  if saved then "[INFO] Saved " ++ toString identities.length ++ " identities to cache file\n"
  else "[WARN] Failed to save identity cache\n"

end UsageLedger.IdentityStore
