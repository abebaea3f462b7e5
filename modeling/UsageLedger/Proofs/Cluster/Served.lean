/-
UsageLedger/Proofs/Cluster/Served.lean

Trees as a cluster serves them.  What a directory holds is listed page by page, so
`Contents` keeps the entries in the order of the listing, the places where a page
ends, and with each entry what it holds itself.  `Tree.ServedBy` says that the
replies to the requests for attributes and pages are those of a tree; it says
nothing about identities.

`Tree.visited` lists the entries that a walk has to meet, each with the directory
that lists it: the root, and every entry of a counted kind on any page of any
directory that is reached from the root through directories.
-/
import Mathlib
import UsageLedger.Cluster.Walk
import UsageLedger.Proofs.Cluster.Lookup

namespace UsageLedger

namespace Cluster

/-! ### Entries -/

namespace Entry

/-- The path under which an entry is visited, and requested if it is a directory. -/
def place (e : Entry) : String := trimmedPath (e.path.text?.getD "")

/-- The ids of owner and group, as far as an entry has them. -/
def ids (e : Entry) : List String :=
  ([e.member "owner", e.member "group"].filter Json.isPresent).map Json.display

/-- The size and the blocks of a file are no infinite numbers. -/
def Finite (e : Entry) : Prop :=
  e.kind.isFile = true →
    (e.member "size").isInfinite = false ∧ (e.member "datablocks").isInfinite = false

instance (e : Entry) : Decidable e.Finite :=
  inferInstanceAs (Decidable (e.kind.isFile = true → _ ∧ _))

end Entry

theorem Entry.Finite.exists_count {e : Entry} (h : e.Finite) :
    (∃ n, e.count "size" = .ok n) ∧ ∃ n, e.count "datablocks" = .ok n := by
  unfold Entry.count
  by_cases hf : e.kind.isFile = true
  · rw [if_pos hf, if_pos hf]
    exact ⟨Json.exists_toCount (h hf).1, Json.exists_toCount (h hf).2⟩
  · rw [if_neg hf, if_neg hf]
    exact ⟨⟨0, rfl⟩, ⟨0, rfl⟩⟩

/-- What a visit takes from its entry. -/
theorem Entry.visit_eq_ok {e : Entry} {owner group : Json} {v : Visit} (h : e.visit owner group = .ok v) :
    ∃ name size blocks, e.count "size" = .ok size ∧ e.count "datablocks" = .ok blocks ∧
      v = ⟨e.place, e.kind, name, owner, group, size, blocks⟩ := by
  simp only [visit, bind_eq_ok] at h
  obtain ⟨name, -, size, hsize, blocks, hblocks, p, hp, hv⟩ := h
  cases hpath : e.path with
  | text s =>
    rw [hpath] at hp
    cases hp
    cases hv
    have hplace : e.place = trimmedPath p := by
      rw [place, hpath]
      rfl
    exact ⟨name, size, blocks, hsize, hblocks, by rw [hplace]⟩
  | _ =>
    rw [hpath] at hp
    cases hp

/-- The visit of an entry whose path is a text and whose counts are finite. -/
theorem Entry.exists_visit {e : Entry} (hp : ∃ p, e.path = .text p) (hf : e.Finite) (owner group : Json) :
    ∃ v, e.visit owner group = .ok v := by
  obtain ⟨p, hp⟩ := hp
  obtain ⟨⟨size, hs⟩, ⟨blocks, hb⟩⟩ := hf.exists_count
  obtain ⟨name, hn⟩ : ∃ name, e.name = .ok name := by
    unfold name
    split
    · exact ⟨_, rfl⟩
    · rw [hp]
      exact ⟨_, rfl⟩
  refine ⟨⟨trimmedPath p, e.kind, name, owner, group, size, blocks⟩, ?_⟩
  simp only [visit, hn, hs, hb, hp]
  rfl

/-! ### Contents -/

/-- An entry and the directory that lists it; the root is listed in none. -/
structure Listed where
  directory? : Option String
  entry : Entry

/-- What a directory holds, in the order in which it is listed. -/
inductive Contents
  | nil
  /-- A page ends here, and another one follows. -/
  | nextPage (rest : Contents)
  /-- An entry, what it holds if it is a directory, and what is listed after it. -/
  | entry (e : Entry) (inside rest : Contents)

namespace Contents

/-- The entries of the first page. -/
def page : Contents → List Entry
  | nil => []
  | nextPage _ => []
  | entry e _ rest => e :: rest.page

/-- What is listed on the pages after the first one, if there are any. -/
def later? : Contents → Option Contents
  | nil => none
  | nextPage rest => some rest
  | entry _ _ rest => rest.later?

/-- All that is listed in a directory with these contents and, through directories, below it. -/
def listed (directory : String) : Contents → List Listed
  | nil => []
  | nextPage rest => rest.listed directory
  | entry e inside rest =>
    ⟨some directory, e⟩ :: ((if e.kind.isDirectory then inside.listed e.place else []) ++
      rest.listed directory)

/-- What of it is of a counted kind. -/
def due (directory : String) (c : Contents) : List Listed :=
  (c.listed directory).filter (·.entry.kind.isCounted)

@[simp] theorem due_nil (directory : String) : nil.due directory = [] := rfl

@[simp] theorem due_nextPage (directory : String) (rest : Contents) :
    (nextPage rest).due directory = rest.due directory := rfl

/-- What is met below an entry that holds these contents. -/
def under (inside : Contents) (e : Entry) : List Listed :=
  if e.kind.isDirectory then inside.due e.place else []

/-- A counted entry comes before what it holds, and that before what is listed after it. -/
theorem due_entry {e : Entry} (he : e.kind.isCounted = true) (directory : String)
    (inside rest : Contents) :
    (entry e inside rest).due directory =
      ⟨some directory, e⟩ :: (inside.under e ++ rest.due directory) := by
  unfold due under
  simp only [listed, List.filter_cons, he, if_true, List.filter_append]
  split <;> rfl

/-- An entry of another kind is left out; it is no directory, so nothing is left out with it. -/
theorem due_entry_of_not {e : Entry} (he : e.kind.isCounted = false) (directory : String)
    (inside rest : Contents) :
    (entry e inside rest).due directory = rest.due directory := by
  have hd : e.kind.isDirectory = false := by
    cases hk : e.kind <;> simp_all [NodeKind.isCounted, NodeKind.isDirectory]
  simp [due, listed, he, hd]

end Contents

/-! ### Served pages -/

/-- The entries on a page. -/
def Holds (page : Json) (entries : List Entry) : Prop :=
  ∃ items, (filesOf page).bind Json.items = .ok items ∧
    List.Forall₂ (fun v e => Entry.ofJson v "" = .ok e) items entries

mutual

/-- A directory is listed with these contents, from the page after a token on. -/
inductive Pages (site : Site) (directory : String) : Option String → Contents → Prop
  | page {after? : Option String} {c : Contents} {page : Json} :
      site.receive (.pageOf directory pageLimit after?) = .ok page → Holds page c.page →
      Follows site directory page c.later? → Pages site directory after? c

/-- After a page come these contents. -/
inductive Follows (site : Site) (directory : String) : Json → Option Contents → Prop
  | last {page : Json} : nextToken page = .ok none → Follows site directory page none
  | more {page : Json} {token : String} {rest : Contents} : nextToken page = .ok (some token) →
      Pages site directory (some token) rest → Follows site directory page (some rest)

end

/-- Every listed entry has a path, and every directory among them is listed with what it holds. -/
def Contents.ServedBy (site : Site) : Contents → Prop
  | nil => True
  | nextPage rest => rest.ServedBy site
  | entry e inside rest =>
    (∃ p, e.path = .text p) ∧
      (e.kind.isDirectory = true → Pages site e.place none inside ∧ inside.ServedBy site) ∧
      rest.ServedBy site

/-! ### Trees -/

/-- A tree of a cluster: the root, and what it holds if it is a directory. -/
structure Tree where
  root : Entry
  inside : Contents

namespace Tree

/-- All that is listed below the root. -/
def below (t : Tree) : List Listed :=
  if t.root.kind.isDirectory then t.inside.listed t.root.place else []

/-- What is met by a walk: the root, and below it what is of a counted kind. -/
def visited (t : Tree) : List Listed :=
  ⟨none, t.root⟩ :: t.below.filter (·.entry.kind.isCounted)

/-- The ids for which a walk needs names. -/
def ids (t : Tree) : List String := t.visited.flatMap (·.entry.ids)

/-- A site serves a tree when it is asked for a path. -/
structure ServedBy (t : Tree) (site : Site) (path : String) : Prop where
  attributes : ∃ v, site.receive (.attributesOf path) = .ok v ∧ Entry.ofJson v path = .ok t.root
  path : ∃ p, t.root.path = .text p
  inside : t.root.kind.isDirectory = true →
    Pages site t.root.place none t.inside ∧ t.inside.ServedBy site

theorem visited_eq (t : Tree) : t.visited = ⟨none, t.root⟩ :: t.inside.under t.root := by
  unfold visited below Contents.under Contents.due
  split <;> rfl

end Tree

/-! ### Sites that know some replies -/

/-- A site that answers some requests and refuses all others. -/
def Site.answering (replies : Catalog Request Json) : Site where
  base := ""
  server := fun r =>
    match replies.find? r with
    | some body => .answer 200 "OK" (.ok body)
    | none => .answer 404 "Not Found" (.error "")

theorem Site.receive_answering {replies : Catalog Request Json} {r : Request} {body : Json}
    (h : replies.find? r = some body) : (Site.answering replies).receive r = .ok body := by
  simp [answering, receive, h]

/-- An entry with a path, a kind and other members. -/
def Entry.sample (path : String) (kind : NodeKind) (more : Catalog String Json) : Entry :=
  ⟨[("path", .text path), ("type", kind.tag)] ++ more, .text path, kind⟩

/-- A page with some entries and other members. -/
def samplePage (entries : List Entry) (more : Catalog String Json) : Json :=
  .object ([("files", .list (entries.map fun e => .object e.members))] ++ more)

namespace Project

/-- A directory of a project, with an owner and a group. -/
def root : Entry := .sample "/p" .directory [("owner", .text "1"), ("group", .text "2")]

def notes : Entry := .sample "/p/notes" .file [("owner", .text "1"), ("size", .text "5")]

/-- A directory whose path is given with a slash at the end. -/
def data : Entry := .sample "/p/data/" .directory []

def table : Entry := .sample "/p/data/table" .file [("owner", .text "2"), ("size", .int 70)]

def link : Entry := .sample "/p/link" .symlink []

def socket : Entry := .sample "/p/socket" (.other (.text "FS_FILE_TYPE_UNIX_SOCKET")) []

/-- The project: its directory is listed on two pages, the directory below on one. -/
def tree : Tree :=
  ⟨root, .entry notes .nil (.entry data (.entry table .nil .nil)
    (.nextPage (.entry socket .nil (.entry link .nil .nil))))⟩

/-- The first page of the project. -/
def firstPage : Json :=
  samplePage [notes, data]
    [("paging", .object [("next", .text "/v1/files/%2Fp/entries/?limit=1000&after=x")])]

/-- A cluster with the project; of the two ids it cannot expand the second one. -/
def site : Site := .answering
  [ (.attributesOf "/p/", .object root.members),
    (.pageOf "/p" pageLimit none, firstPage),
    (.pageOf "/p" pageLimit (some "x"), samplePage [socket, link] []),
    (.pageOf "/p/data" pageLimit none, samplePage [table] []),
    (.expand "1", .object [("id", .object [("name", .text "ann")])]),
    (.find "2", .object [("name", .text "ben")]) ]

theorem place_root : root.place = "/p" := by decide +kernel

theorem place_data : data.place = "/p/data" := by decide +kernel

theorem pages_data : Pages site data.place none (.entry table .nil .nil) := by
  rw [place_data]
  have hpage : site.receive (.pageOf "/p/data" pageLimit none) = .ok (samplePage [table] []) :=
    Site.receive_answering (by cbv)
  refine .page hpage ?_ ?_
  · exact ⟨_, rfl, .cons (by cbv) .nil⟩
  · exact .last (by decide +kernel)

theorem pages_root : Pages site root.place none tree.inside := by
  rw [place_root]
  have hfirst : site.receive (.pageOf "/p" pageLimit none) = .ok firstPage :=
    Site.receive_answering (by cbv)
  have hsecond : site.receive (.pageOf "/p" pageLimit (some "x")) = .ok (samplePage [socket, link] []) :=
    Site.receive_answering (by cbv)
  have htoken : nextToken firstPage = .ok (some "x") := by decide +kernel
  refine .page hfirst ?_ ?_
  · exact ⟨_, rfl, .cons (by cbv) (.cons (by cbv) .nil)⟩
  · refine .more htoken (.page hsecond ?_ ?_)
    · exact ⟨_, rfl, .cons (by cbv) (.cons (by cbv) .nil)⟩
    · exact .last (by decide +kernel)

theorem tree_servedBy : tree.ServedBy site "/p/" where
  attributes := ⟨.object root.members, Site.receive_answering (by cbv), by cbv⟩
  path := ⟨"/p", rfl⟩
  inside := by
    intro _
    refine ⟨pages_root, ⟨_, rfl⟩, fun h => absurd h (by decide), ⟨_, rfl⟩, fun _ => ⟨pages_data, ?_⟩, ?_⟩
    · exact ⟨⟨_, rfl⟩, fun h => absurd h (by decide), trivial⟩
    · exact ⟨⟨_, rfl⟩, fun h => absurd h (by decide), ⟨_, rfl⟩, fun h => absurd h (by decide), trivial⟩

end Project

namespace Overflow

def root : Entry := .sample "/d/" .directory [("owner", .text "1")]

/-- A file of infinite size. -/
def huge : Entry :=
  .sample "/d/a" .file [("name", .text "a"), ("owner", .text "1"), ("size", .real (.infinite false))]

def small : Entry :=
  .sample "/d/b" .file [("name", .text "b"), ("owner", .text "2"), ("size", .text "5")]

/-- A directory with the two files. -/
def tree : Tree := ⟨root, .entry huge .nil (.entry small .nil .nil)⟩

/-- A cluster with the directory and both identities. -/
def site : Site := .answering
  [ (.attributesOf "/d", .object root.members),
    (.pageOf "/d" pageLimit none, samplePage [huge, small] []),
    (.expand "1", .object [("id", .object [("name", .text "ann")])]),
    (.expand "2", .object [("id", .object [("name", .text "ben")])]) ]

theorem tree_servedBy : tree.ServedBy site "/d" where
  attributes := ⟨.object root.members, Site.receive_answering (by cbv), by cbv⟩
  path := ⟨"/d/", rfl⟩
  inside := by
    intro _
    have hplace : root.place = "/d" := by decide +kernel
    constructor
    · show Pages site root.place none _
      rw [hplace]
      have hpage : site.receive (.pageOf "/d" pageLimit none) = .ok (samplePage [huge, small] []) :=
        Site.receive_answering (by cbv)
      refine .page hpage ?_ ?_
      · exact ⟨_, rfl, .cons (by cbv) (.cons (by cbv) .nil)⟩
      · exact .last (by decide +kernel)
    · exact ⟨⟨_, rfl⟩, fun h => absurd h (by decide), ⟨_, rfl⟩, fun h => absurd h (by decide), trivial⟩

end Overflow

end Cluster

end UsageLedger
