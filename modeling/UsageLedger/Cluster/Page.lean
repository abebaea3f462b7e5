/-
UsageLedger/Cluster/Page.lean

Pages of directories.  A directory is listed page by page; each page but the
last carries the address of the next one, and the token for it is a parameter in
that address.
-/
import UsageLedger.Cluster.Client
import UsageLedger.Url.Basic

namespace UsageLedger.Cluster

/-- The number of entries that are asked for at once. -/
def pageLimit : Int := 1000

/-- Whether a text occurs in another one. -/
def occursIn (needle : List Char) : List Char → Bool
  | [] => needle.isEmpty
  | c :: cs => needle.isPrefixOf (c :: cs) || occursIn needle cs

/-- The part of a page that tells about the next one, if there is such a part. -/
def paging? : Json → Except Fault (Option Json)
  | .object members => .ok (Catalog.find? "paging" members)
  | .list items => if items.any (· == .text "paging") then .error .wrongKind else .ok none
  | .text s => if occursIn "paging".toList s.toList then .error .wrongKind else .ok none
  | _ => .error .wrongKind

/-- The token for the page after a page, if there is one. -/
def nextToken (page : Json) : Except Fault (Option String) := do
  match ← paging? page with
  | none => return none
  | some paging =>
    let address ← paging.member "next"
    if !address.isPresent then return none
    return (← Url.parse (← address.asText)).parameter? "after"

/-- The entries of a page, as they stand in it; they can be gone through one by one. -/
def filesOf (page : Json) : Except Fault Json := do
  let files ← page.memberOr "files" (.list [])
  let _ ← files.items
  return files

namespace Client

/-- The attributes of a file or directory. -/
def attributes (site : Site) (c : Client) (path : String) : Client × Except Fault Json :=
  c.send site (.attributesOf path)

/-- A page of a directory. -/
def page (site : Site) (c : Client) (path : String) (limit : Int) (after? : Option String) :
    Client × Except Fault Json :=
  c.send site (.pageOf path limit after?)

end Client

/-- A whole directory: the number of its entries, and the entries of each page that has some. -/
structure Listing where
  total : Nat
  pages : List Json

/-- The empty directory. -/
def Listing.empty : Listing := ⟨0, []⟩

/-- The listing with a page put in front. -/
def Listing.cons (files : Json) (l : Listing) : Except Fault Listing :=
  files.items.map fun items =>
    ⟨items.length + l.total, if items.isEmpty then l.pages else files :: l.pages⟩

namespace Client

/-- Lists a directory from a page on, in at most so many pages. -/
def listFrom (site : Site) (path : String) : Nat → Client → Option String →
    Client × Except Fault Listing
  | 0, c, _ => (c, .error .endless)
  | pages + 1, c, after? =>
    let (c, reply) := c.page site path pageLimit after?
    match reply.bind fun page => (filesOf page).bind fun files => (nextToken page).map (files, ·) with
    | .error f => (c, .error f)
    | .ok (files, none) => (c, Listing.empty.cons files)
    | .ok (files, some token) =>
      let (c, rest) := listFrom site path pages c (some token)
      (c, rest.bind (·.cons files))

/-- Lists a directory in at most so many pages. -/
def list (site : Site) (pages : Nat) (c : Client) (path : String) : Client × Except Fault Listing :=
  c.listFrom site path pages none

end Client

end UsageLedger.Cluster
