/-
UsageLedger/Proofs/Cluster/Paging.lean

Directories that are listed page by page.  A listing ends where a page carries no token, so
what is listed rests on every token coming back as it was sent: it stands encoded in the
address of the next page (`IsNext`) and is read from there (`parameter?_of_isNext`).

A `Paging` is a directory cut into pages, empty ones among them.  Listing goes through its
pages in order and asks for each of them once (`Paging.listFrom_eq`), so the entries that
are delivered are those of the directory, in order, wherever it is cut.
-/
import Mathlib.Data.List.Nodup
import UsageLedger.Cluster.Page
import UsageLedger.Proofs.Cluster.Served
import UsageLedger.Proofs.Url.Query

namespace UsageLedger.Cluster

open Text

variable {token address path : String} {next? after? : Option String} {members : Catalog String Json}

/-! ### Addresses of next pages -/

/-- The address of the page after a token: it names a path, and among its parameters the token comes
first.  Path, token and all other parameters are encoded. -/
def IsNext (token address : String) : Prop :=
  ∃ path place parameters fields, Url.Encodes (utf8Bytes path) place ∧
    List.Forall₂ Url.IsField (("after", token) :: parameters) fields ∧
    address = String.ofList
      ("/v1/files/".toList ++ place ++ "/entries/?".toList ++ ['&'].intercalate fields)

/-- Such an address is taken apart into its query. -/
theorem parse_entries {bytes : List UInt8} {place : List Char} {parameters : List (String × String)}
    {fields : List (List Char)} (hplace : Url.Encodes bytes place)
    (hfields : List.Forall₂ Url.IsField parameters fields) :
    Url.parse (String.ofList ("/v1/files/".toList ++ place ++ "/entries/?".toList ++
      ['&'].intercalate fields)) = .ok ⟨[], ['&'].intercalate fields⟩ := by
  have hquery (d : Char) (hd : d ∈ ['&'].intercalate fields) : 0x20 < d.toNat ∧ d ≠ '#' :=
    Url.visible_query hfields hd
  generalize ['&'].intercalate fields = query at hquery ⊢
  -- There is one slash in front, and the first question mark is that of the query.
  have hfront : "/v1/files/".toList = '/' :: 'v' :: "1/files/".toList := rfl
  have hback : "/entries/?".toList = "/entries/".toList ++ ['?'] := rfl
  have hshape : "/v1/files/".toList ++ place ++ "/entries/?".toList ++ query =
      '/' :: ('v' :: ("1/files/".toList ++ place ++ "/entries/".toList) ++ '?' :: query) := by
    rw [hfront, hback]
    simp
  have hfixed {s : String} (h : s.toList.all (0x20 < ·.toNat) = true) : ∀ d ∈ s.toList, 0x20 < d.toNat :=
    fun d hd => of_decide_eq_true (List.all_eq_true.1 h d hd)
  rw [hshape]
  refine Url.parse_local (by decide) ?_ ?_ ?_
  · simp only [List.cons_append, List.forall_mem_cons, List.forall_mem_append]
    exact ⟨by decide, ⟨⟨hfixed (by decide), fun d hd => (hplace.visible hd).1⟩, hfixed (by decide)⟩,
      by decide, fun d hd => (hquery d hd).1⟩
  · simp only [List.mem_cons, List.mem_append, not_or]
    exact ⟨by decide, ⟨by decide, hplace.not_mem (by decide)⟩, by decide⟩
  · simp only [List.cons_append, List.mem_cons, List.mem_append, not_or]
    exact ⟨by decide, ⟨⟨by decide, hplace.not_mem (by decide)⟩, by decide⟩, by decide,
      fun hd => (hquery _ hd).2 rfl⟩

/-- **The token comes back** as it was sent. -/
theorem parameter?_of_isNext (h : IsNext token address) (hne : token ≠ "") :
    ∃ u, Url.parse address = .ok u ∧ u.parameter? "after" = some token := by
  obtain ⟨path, place, parameters, fields, hplace, hfields, rfl⟩ := h
  refine ⟨_, parse_entries hplace hfields, ?_⟩
  have hread := Url.parameters_of_isField hfields (by rintro rfl; cases hfields) []
  unfold Url.parameter?
  rw [hread, List.filter_cons_of_pos (by simpa using hne)]
  rfl

/-! ### Pages -/

/-- What the members of a page say about the next one: there is none, or it comes after a token. -/
inductive Tells (members : Catalog String Json) : Option String → Prop
  | unpaged : members.find? "paging" = none → Tells members none
  | last {paging : Catalog String Json} : members.find? "paging" = some (.object paging) →
      ((paging.find? "next").getD .null).isPresent = false → Tells members none
  | more {paging : Catalog String Json} {token address : String} :
      members.find? "paging" = some (.object paging) →
      paging.find? "next" = some (.text address) → token ≠ "" → IsNext token address →
      Tells members (some token)

/-- A page with some entries. -/
structure Carries (page : Json) (entries : List Json) (next? : Option String) : Prop where
  files : page.memberOr "files" (.list []) = .ok (.list entries)
  next : ∃ members, page = .object members ∧ Tells members next?

theorem nextToken_of_tells (h : Tells members next?) : nextToken (.object members) = .ok next? := by
  cases h with
  | unpaged hnone =>
    simp only [nextToken, paging?, hnone, bind, Except.bind, pure, Except.pure]
  | last hpaging hlast =>
    simp [nextToken, paging?, hpaging, Json.member, Json.memberOr, Json.members, Except.map, hlast, bind,
      Except.bind, pure, Except.pure]
  | @more paging token address hpaging hnext hne haddress =>
    obtain ⟨u, hparse, hparameter⟩ := parameter?_of_isNext haddress hne
    have hpresent : (Json.text address).isPresent = true := by
      by_contra hempty
      obtain rfl : address = "" := by simpa [Json.isPresent] using hempty
      -- The empty address has no parameters.
      cases hparse
      cases hparameter
    simp [nextToken, paging?, hpaging, Json.member, Json.memberOr, Json.members, Except.map, hnext,
      hpresent, Json.asText, hparse, hparameter, bind, Except.bind, pure, Except.pure]

theorem Carries.filesOf_eq {page : Json} {entries : List Json} (h : Carries page entries next?) :
    filesOf page = .ok (.list entries) := by
  simp only [filesOf, h.files, Json.items, bind, Except.bind, pure, Except.pure]

theorem Carries.nextToken_eq {page : Json} {entries : List Json} (h : Carries page entries next?) :
    nextToken page = .ok next? := by
  obtain ⟨members, rfl, htells⟩ := h.next
  exact nextToken_of_tells htells

/-! ### Listings -/

/-- A directory cut into pages: the entries of the first one, and of each later one with its token. -/
structure Paging where
  first : List Json
  later : List (String × List Json)

/-- The entries of a listing, page after page. -/
def Listing.entries (l : Listing) : List Json :=
  l.pages.flatMap fun page => page.items.toOption.getD []

namespace Paging

/-- The entries page by page. -/
def pages (p : Paging) : List (List Json) := p.first :: p.later.map Prod.snd

/-- All entries in order. -/
def entries (p : Paging) : List Json := p.pages.flatten

/-- The tokens of the pages after the first one. -/
def tokens (p : Paging) : List String := p.later.map Prod.fst

/-- The requests for the pages in order, if the first one is that after a token. -/
def requests (p : Paging) (path : String) (after? : Option String) : List Request :=
  (after? :: p.tokens.map some).map (Request.pageOf path pageLimit)

/-- What a listing comes to. -/
def listing (p : Paging) : Listing := ⟨p.entries.length, (p.pages.filter (· ≠ [])).map .list⟩

/-- A site serves a directory in these pages, the first one after a token. -/
inductive ServedBy (site : Site) (path : String) : Option String → Paging → Prop
  | last {after? : Option String} {page : Json} {entries : List Json} :
      site.receive (.pageOf path pageLimit after?) = .ok page → Carries page entries none →
      ServedBy site path after? ⟨entries, []⟩
  | more {after? : Option String} {page : Json} {entries next : List Json} {token : String}
      {later : List (String × List Json)} :
      site.receive (.pageOf path pageLimit after?) = .ok page → Carries page entries (some token) →
      ServedBy site path (some token) ⟨next, later⟩ →
      ServedBy site path after? ⟨entries, (token, next) :: later⟩

variable {site : Site} {c : Client} {p : Paging}

/-- Every page but the first one comes after a token that is not empty. -/
theorem ServedBy.ne_empty (h : p.ServedBy site path after?) : ∀ token ∈ p.tokens, token ≠ "" := by
  induction h with
  | last => nofun
  | more _ hcarries _ ih =>
    obtain ⟨_, _, htells⟩ := hcarries.next
    refine List.forall_mem_cons.2 ⟨?_, ih⟩
    cases htells with
    | more _ _ hne _ => exact hne

theorem listing_last (entries : List Json) :
    Listing.empty.cons (.list entries) = .ok (listing ⟨entries, []⟩) := by
  cases entries <;> simp [Listing.cons, Listing.empty, Json.items, Except.map, listing, Paging.entries, pages]

theorem listing_more (entries next : List Json) (token : String) (later : List (String × List Json)) :
    (listing ⟨next, later⟩).cons (.list entries) = .ok (listing ⟨entries, (token, next) :: later⟩) := by
  have hentries : Paging.entries ⟨entries, (token, next) :: later⟩ =
      entries ++ Paging.entries ⟨next, later⟩ := rfl
  have hpages : pages ⟨entries, (token, next) :: later⟩ = entries :: pages ⟨next, later⟩ := rfl
  unfold listing Listing.cons
  rw [hentries, hpages, List.length_append]
  cases entries <;> rfl

/-- **A listing** goes through the pages in order. -/
theorem listFrom_eq (h : p.ServedBy site path after?) {pages : Nat} (hp : p.later.length < pages) :
    c.listFrom site path pages after? =
      ({ c with sent := (p.requests path after?).reverse ++ c.sent }, .ok p.listing) := by
  -- Induction on the pages, where the client that lists the later ones has made one request more.
  induction h generalizing c pages with
  | @last after? page entries hreply hcarries =>
    obtain ⟨pages, rfl⟩ : ∃ n, pages = n + 1 := ⟨pages - 1, by omega⟩
    rw [Client.listFrom, Client.page, Client.send]
    simp only [hreply, Except.bind, hcarries.filesOf_eq, hcarries.nextToken_eq, Except.map, listing_last]
    rfl
  | @more after? page entries next token later hreply hcarries hserved ih =>
    obtain ⟨pages, rfl⟩ : ∃ n, pages = n + 1 := ⟨pages - 1, by omega⟩
    rw [Client.listFrom, Client.page, Client.send]
    simp only [hreply, Except.bind, hcarries.filesOf_eq, hcarries.nextToken_eq, Except.map]
    rw [ih (by simpa using hp)]
    have hrequests : requests ⟨entries, (token, next) :: later⟩ path after? =
        .pageOf path pageLimit after? :: requests ⟨next, later⟩ path (some token) := rfl
    refine Prod.ext ?_ (listing_more entries next token later)
    rw [hrequests, List.reverse_cons, List.append_assoc]
    rfl

/-- Pages with different tokens are different requests. -/
theorem nodup_requests (h : p.ServedBy site path none) (hd : p.tokens.Nodup) :
    (p.requests path none).Nodup := by
  -- Only an empty token would not be sent as it is.
  have hkept (after? : Option String) (hmem : after? ∈ none :: p.tokens.map some) :
      after?.filter (fun token => !token.isEmpty) = after? := by
    rcases List.mem_cons.1 hmem with rfl | hmem
    · rfl
    · obtain ⟨token, htoken, rfl⟩ := List.mem_map.1 hmem
      simpa [Option.filter] using h.ne_empty token htoken
  refine List.Nodup.map_on (fun x hx y hy hxy => ?_) ?_
  · have hsame := (Request.entries.inj hxy).2.2
    rwa [hkept x hx, hkept y hy] at hsame
  · rw [List.nodup_cons]
    exact ⟨by simp, hd.map (Option.some_injective _)⟩

theorem entries_listing (p : Paging) : p.listing.entries = p.entries := by
  have hpages (pages : List (List Json)) :
      ((pages.filter (· ≠ [])).map Json.list).flatMap (fun page => page.items.toOption.getD []) =
        pages.flatten := by
    induction pages with
    | nil => rfl
    | cons page rest ih =>
      rw [List.flatten_cons, ← ih]
      cases page <;> rfl
  exact hpages p.pages

end Paging

/-- **A directory is listed** by asking once for each of its pages, in order, and nothing else; what is
delivered are the pages that are not empty, with all entries of the directory in order, however it is cut
into pages. -/
theorem Client.list_served {site : Site} {c : Client} {p : Paging} {pages : Nat}
    (h : p.ServedBy site path none) (hd : p.tokens.Nodup) (hp : p.later.length < pages) :
    c.list site pages path =
        ({ c with sent := (p.requests path none).reverse ++ c.sent }, .ok p.listing) ∧
      (p.requests path none).Nodup ∧ p.listing.entries = p.entries ∧
      ∀ (site' : Site) (path' : String) (c' : Client) (p' : Paging) (pages' : Nat),
        p'.ServedBy site' path' none → p'.later.length < pages' → p'.entries = p.entries →
          ∃ l, (c'.list site' pages' path').2 = .ok l ∧ l.entries = p.listing.entries ∧
            l.total = p.listing.total := by
  refine ⟨Paging.listFrom_eq h hp, Paging.nodup_requests h hd, p.entries_listing, ?_⟩
  intro site' path' c' p' pages' h' hp' hsame
  refine ⟨p'.listing, congrArg Prod.snd (Paging.listFrom_eq h' hp'), ?_, congrArg List.length hsame⟩
  rw [p'.entries_listing, p.entries_listing, hsame]

/-! ### A directory on three pages -/

/-- The address of a next page, as it is written with everything encoded. -/
def nextAddress (path token : String) (parameters : List (String × String)) : String :=
  String.ofList ("/v1/files/".toList ++ (Url.encode path).toList ++ "/entries/?".toList ++
    ['&'].intercalate ((("after", token) :: parameters).map fun p =>
      (Url.encode p.1).toList ++ '=' :: (Url.encode p.2).toList))

theorem isNext_nextAddress (path token : String) (parameters : List (String × String)) :
    IsNext token (nextAddress path token parameters) := by
  refine ⟨path, _, parameters, _, Url.encodes_encode path, ?_, rfl⟩
  rw [List.forall₂_map_right_iff]
  exact List.forall₂_same.2 fun p _ => ⟨_, _, Url.encodes_encode p.1, Url.encodes_encode p.2, rfl⟩

example : nextAddress "/d" "é 2" [("limit", "1000")] =
    "/v1/files/%2Fd/entries/?after=%C3%A9%202&limit=1000" := by decide +kernel

namespace ThreePages

/-- A directory whose second page is empty, and with tokens that have to be encoded. -/
def paging : Paging := ⟨[.text "a", .text "b"], [("é 2", []), ("3/=&", [.text "c"])]⟩

def page (files : List Json) (next : String) : Json :=
  .object [("files", .list files), ("paging", .object [("next", .text next)])]

/-- A site with the pages of a directory. -/
def siteOf (first second third : Json) : Site := .answering
  [ (.pageOf "/d" pageLimit none, first), (.pageOf "/d" pageLimit (some "é 2"), second),
    (.pageOf "/d" pageLimit (some "3/=&"), third) ]

def site : Site :=
  siteOf (page [.text "a", .text "b"] (nextAddress "/d" "é 2" []))
    (page [] (nextAddress "/d" "3/=&" [("limit", "1000")])) (page [.text "c"] "")

theorem carries_next (files : List Json) {token address : String} (hne : token ≠ "")
    (h : IsNext token address) : Carries (page files address) files (some token) :=
  ⟨rfl, _, rfl, .more rfl rfl hne h⟩

theorem carries_last (files : List Json) : Carries (page files "") files none :=
  ⟨rfl, _, rfl, .last rfl rfl⟩

theorem servedBy : paging.ServedBy site "/d" none := by
  have hreplies (first second third : Json) :
      (siteOf first second third).receive (.pageOf "/d" pageLimit none) = .ok first ∧
        (siteOf first second third).receive (.pageOf "/d" pageLimit (some "é 2")) = .ok second ∧
        (siteOf first second third).receive (.pageOf "/d" pageLimit (some "3/=&")) = .ok third :=
    ⟨Site.receive_answering (by cbv), Site.receive_answering (by cbv), Site.receive_answering (by cbv)⟩
  obtain ⟨hfirst, hsecond, hthird⟩ := hreplies (page [.text "a", .text "b"] (nextAddress "/d" "é 2" []))
    (page [] (nextAddress "/d" "3/=&" [("limit", "1000")])) (page [.text "c"] "")
  refine .more hfirst (carries_next _ (by decide) (isNext_nextAddress ..)) ?_
  refine .more hsecond (carries_next _ (by decide) (isNext_nextAddress ..)) ?_
  exact .last hthird (carries_last _)

end ThreePages

theorem Client.list_served_threePages :
    ThreePages.paging.ServedBy ThreePages.site "/d" none ∧ ThreePages.paging.tokens.Nodup ∧
      ThreePages.paging.later.length < 3 ∧
      ((ofCache []).list ThreePages.site 3 "/d").2 =
        .ok ⟨3, [.list [.text "a", .text "b"], .list [.text "c"]]⟩ := by
  have hnodup : ThreePages.paging.tokens.Nodup := by decide
  have hlength : ThreePages.paging.later.length < 3 := by decide
  refine ⟨ThreePages.servedBy, hnodup, hlength, ?_⟩
  exact congrArg Prod.snd (list_served ThreePages.servedBy hnodup hlength).1

end UsageLedger.Cluster
