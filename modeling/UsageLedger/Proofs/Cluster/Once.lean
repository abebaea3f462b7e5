/-
UsageLedger/Proofs/Cluster/Once.lean

Identities are looked up once.  At any time of a walk each id has been expanded at
most once, and only if an entry gives it and it was not known before; an inquiry for
it has been made at most once, after its expansion was refused (`Walk.Sparing`).  When
the walk cannot go on, every such id has been expanded, its identity is kept, and all
entries with one id have been visited under one name (`Walk.LookedUp`).

Both are read off the phase that an id is in (`Client.Phase`): the requests made for an
id are those of one lookup, as far as it has come.
-/
import Mathlib.Data.List.Dedup
import UsageLedger.Proofs.Cluster.Complete
import UsageLedger.Proofs.Cluster.Identities

namespace UsageLedger.Cluster

variable {site : Site} {wanted : String → Prop} {t : Tree} {path : String} {c c₀ : Client}
  {requests : List Request} {id : String}

/-! ### The requests for one id -/

/-- The id that a request asks to expand. -/
def Request.expanded? : Request → Option String
  | .expand id => some id
  | _ => none

theorem count_expand_filter (requests : List Request) (id : String) :
    (requests.filter (Request.concerns id)).count (.expand id) = requests.count (.expand id) :=
  List.count_filter (by simp [Request.concerns])

theorem count_find_filter (requests : List Request) (id : String) :
    (requests.filter (Request.concerns id)).count (.find id) = requests.count (.find id) :=
  List.count_filter (by simp [Request.concerns])

theorem count_filterMap_expanded? (requests : List Request) (id : String) :
    (requests.filterMap Request.expanded?).count id = requests.count (.expand id) := by
  induction requests with
  | nil => rfl
  | cons r rest ih =>
    cases r with
    | expand id' => simp [List.count_cons, Request.expanded?, ih]
    | _ => simp [List.filterMap_cons, Request.expanded?, ih]

theorem length_filterMap_expanded? (requests : List Request) :
    (requests.filterMap Request.expanded?).length = requests.countP Request.isExpansion := by
  induction requests with
  | nil => rfl
  | cons r rest ih =>
    cases r with
    | expand id' => simp [List.countP_cons, Request.expanded?, Request.isExpansion, ih]
    | _ => simp [List.filterMap_cons, Request.expanded?, Request.isExpansion, ih]

namespace Client

/-- The requests for an id, latest first: none, or those of a lookup of a wanted id that was not known. -/
theorem Phase.requests_cases (h : Phase site wanted c c₀ id requests) :
    requests = [] ∨ (wanted id ∧ c₀.cache.find? id = none ∧
      (requests = [.expand id] ∨ requests = [.find id, .expand id] ∧ site.Refuses id)) := by
  cases h with
  | kept => exact .inl rfl
  | unasked => exact .inl rfl
  | @underWay l h₀ _ hw _ hid _ =>
    obtain ⟨id', stage⟩ := l
    obtain rfl : id' = id := hid
    cases stage with
    | expanding => exact .inl rfl
    | finding => exact .inr ⟨hw, h₀, .inl rfl⟩
  | learned h₀ _ hw _ _ =>
    refine .inr ⟨hw, h₀, ?_⟩
    unfold Site.exchange Site.Refuses
    split
    · rename_i why hwhy
      exact .inr ⟨rfl, why, hwhy⟩
    · exact .inl rfl

/-- What a client knows that it did not know in the beginning it has expanded. -/
theorem Phase.count_expand_of_known (h : Phase site wanted c c₀ id requests)
    (h₀ : c₀.cache.find? id = none) {identity : Json} (hk : c.cache.find? id = some identity) :
    requests.count (.expand id) = 1 := by
  cases h with
  | kept h₀' =>
    rw [h₀] at h₀'
    cases h₀'
  | unasked _ hn =>
    rw [hk] at hn
    cases hn
  | underWay _ hn =>
    rw [hk] at hn
    cases hn
  | learned =>
    unfold Site.exchange
    split <;> simp

variable (h : c.Reached site wanted c₀ requests)

include h

theorem Reached.requests_cases (id : String) :
    requests.filter (Request.concerns id) = [] ∨ (wanted id ∧ c₀.cache.find? id = none ∧
      (requests.filter (Request.concerns id) = [.expand id] ∨
        requests.filter (Request.concerns id) = [.find id, .expand id] ∧ site.Refuses id)) :=
  (h.phase id).requests_cases

theorem Reached.count_expand_le (id : String) : requests.count (.expand id) ≤ 1 := by
  rw [← count_expand_filter]
  rcases h.requests_cases id with he | ⟨-, -, he | ⟨he, -⟩⟩ <;> rw [he] <;> simp

theorem Reached.count_find_le (id : String) : requests.count (.find id) ≤ 1 := by
  rw [← count_find_filter]
  rcases h.requests_cases id with he | ⟨-, -, he | ⟨he, -⟩⟩ <;> rw [he] <;> simp

/-- Only wanted ids that were not known are expanded. -/
theorem Reached.of_expand_mem (hm : .expand id ∈ requests) : wanted id ∧ c₀.cache.find? id = none := by
  have hm' : .expand id ∈ requests.filter (Request.concerns id) :=
    List.mem_filter.2 ⟨hm, by simp [Request.concerns]⟩
  rcases h.requests_cases id with he | ⟨hw, h₀, -⟩
  · rw [he] at hm'
    cases hm'
  · exact ⟨hw, h₀⟩

/-- An inquiry has an expansion before it, which was refused. -/
theorem Reached.of_find_mem {later earlier : List Request} (he : requests = later ++ .find id :: earlier) :
    .expand id ∈ earlier ∧ site.Refuses id := by
  have hfilter : requests.filter (Request.concerns id) =
      later.filter (Request.concerns id) ++ .find id :: earlier.filter (Request.concerns id) := by
    rw [he, List.filter_append, List.filter_cons_of_pos (by simp [Request.concerns])]
  rcases h.requests_cases id with hnone | ⟨-, -, hone | ⟨htwo, hrefused⟩⟩
  · simp [hnone] at hfilter
  · have hm : Request.find id ∈ [Request.expand id] := by
      rw [← hone, hfilter]
      exact List.mem_append_right _ List.mem_cons_self
    simp at hm
  · refine ⟨?_, hrefused⟩
    rw [htwo] at hfilter
    -- The inquiry is the latest of the two requests, so the expansion is what is left.
    cases hlater : later.filter (Request.concerns id) with
    | nil =>
      rw [hlater, List.nil_append, List.cons.injEq] at hfilter
      have hm : Request.expand id ∈ earlier.filter (Request.concerns id) := by
        rw [← hfilter.2]
        exact List.mem_singleton_self _
      exact (List.mem_filter.1 hm).1
    | cons r rest =>
      rw [hlater, List.cons_append, List.cons.injEq] at hfilter
      have hm : Request.find id ∈ [Request.expand id] := by
        rw [hfilter.2]
        exact List.mem_append_right _ List.mem_cons_self
      simp at hm

/-- As many expansions as ids expanded. -/
theorem Reached.countP_isExpansion :
    requests.countP Request.isExpansion = (requests.filterMap Request.expanded?).dedup.length := by
  have hnodup : (requests.filterMap Request.expanded?).Nodup := by
    rw [List.nodup_iff_count_le_one]
    intro id
    rw [count_filterMap_expanded?]
    exact h.count_expand_le id
  rw [hnodup.dedup, length_filterMap_expanded?]

end Client

/-! ### Whole walks -/

/-- The requests of a walk so far, in order of time, look up no id twice and none without need. -/
structure Walk.Sparing (site : Site) (t : Tree) (c : Client) (requests : List Request) : Prop where
  expanded_le : ∀ id, requests.count (.expand id) ≤ 1
  needed : ∀ id, .expand id ∈ requests → id ∈ t.ids ∧ c.cache.find? id = none
  found_le : ∀ id, requests.count (.find id) ≤ 1
  /-- An inquiry comes only after an expansion that was refused. -/
  refused : ∀ id earlier later, requests = earlier ++ .find id :: later →
    .expand id ∈ earlier ∧ site.Refuses id

/-- The name under which an owner or a group is shown. -/
def nameIn (names : String → Json) (id : Json) : Json :=
  if id.isPresent then names id.display else .null

/-- What has become of the identities when a walk with these requests, in order of time, is over. -/
structure Walk.LookedUp (site : Site) (t : Tree) (c : Client) (w : Walk) (requests : List Request) :
    Prop where
  expanded : ∀ id, requests.count (.expand id) = if id ∈ t.ids ∧ c.cache.find? id = none then 1 else 0
  kept : ∀ id, .expand id ∈ requests → ∃ identity, w.client.cache.find? id = some identity
  misses : w.client.misses = c.misses + (requests.filterMap Request.expanded?).dedup.length
  names : ∃ names : String → Json, ∃ order,
    order.Perm (t.visited.filter (·.entry.kind.isCounted)) ∧
    List.Forall₂ (fun l v => v.path = l.entry.place ∧
      v.node.user = nameIn names (l.entry.member "owner") ∧
      v.node.group = nameIn names (l.entry.member "group")) order w.traversal.visits

/-- The name of the identity with an id, where it has one. -/
def Client.shownName (site : Site) (c : Client) (id : String) : Json :=
  (c.nameUnder site id).toOption.getD .null

theorem Client.nameIn_shownName {id name : Json} (h : c.nameOf site id = .ok name) :
    name = nameIn (c.shownName site) id := by
  unfold nameIn Client.shownName
  by_cases hp : id.isPresent = true
  · rw [c.nameOf_of_isPresent site hp] at h
    simp [hp, h, Except.toOption]
  · have hp : id.isPresent = false := by simpa using hp
    rw [c.nameOf_of_not_isPresent site hp] at h
    cases h
    simp [hp]

/-- Visits under the names that go with ids are visits under one name for each id. -/
theorem Client.Visits.named {l : Listed} {v : Visit} (h : c.Visits site l v) :
    v.path = l.entry.place ∧ v.node.user = nameIn (c.shownName site) (l.entry.member "owner") ∧
      v.node.group = nameIn (c.shownName site) (l.entry.member "group") := by
  obtain ⟨owner, group, ho, hg, hv⟩ := h
  obtain ⟨name, size, blocks, -, -, rfl⟩ := Entry.visit_eq_ok hv
  exact ⟨rfl, nameIn_shownName ho, nameIn_shownName hg⟩

/-- What a client has come to tells how sparing it was. -/
theorem Walk.sparing_of_reached (h : c.Reached site (· ∈ t.ids) c₀ requests) :
    Walk.Sparing site t c₀ requests.reverse where
  expanded_le id := by
    rw [List.count_reverse]
    exact h.count_expand_le id
  needed id hm := h.of_expand_mem (List.mem_reverse.1 hm)
  found_le id := by
    rw [List.count_reverse]
    exact h.count_find_le id
  refused id earlier later he := by
    have he' : requests = later.reverse ++ .find id :: earlier.reverse := by
      rw [← List.reverse_reverse requests, he]
      simp
    obtain ⟨hm, hrefused⟩ := h.of_find_mem he'
    exact ⟨List.mem_reverse.1 hm, hrefused⟩

/-- A walk that is over has the identity of every id that it met. -/
theorem Walk.Sound.lookedUp {w : Walk} {done due : List Listed} {n : ℕ} {verbose : Bool}
    (h : w.Sound site t path c requests done due n) (ho : w.Over site verbose) :
    w.LookedUp site t c requests.reverse := by
  obtain ⟨htasks, hunder⟩ := h.of_over ho
  have hperm := h.perm_visited htasks
  have hlearned (id : String) (hid : id ∈ t.ids) : ∃ identity, w.client.cache.find? id = some identity := by
    obtain ⟨l, hl, hid⟩ := List.mem_flatMap.1 hid
    exact h.known l (hperm.mem_iff.2 hl) id hid
  refine ⟨fun id => ?_, fun id hm => ?_, ?_, c.shownName site, _, hperm.filter _, ?_⟩
  · rw [List.count_reverse]
    split
    · rename_i hid
      obtain ⟨identity, hk⟩ := hlearned id hid.1
      rw [← count_expand_filter]
      exact (h.client.phase id).count_expand_of_known hid.2 hk
    · rename_i hid
      exact List.count_eq_zero.2 fun hm => hid (h.client.of_expand_mem hm)
  · exact hlearned id (h.client.of_expand_mem (List.mem_reverse.1 hm)).1
  · have hdedup : (requests.reverse.filterMap Request.expanded?).dedup.length =
        (requests.filterMap Request.expanded?).dedup.length := by
      rw [List.filterMap_reverse]
      exact ((List.reverse_perm _).dedup).length_eq
    rw [hdedup, ← h.client.countP_isExpansion, h.client.misses, hunder]
    rfl
  · exact h.visits.imp fun l v hv => hv.named

section

variable (hs : t.ServedBy site path) (hf : ∀ l ∈ t.visited, l.entry.Finite)
  (hknown : ∀ id ∈ t.ids, ∀ identity, c.cache.find? id = some identity →
    ∃ name, displayName identity = .ok name)
  (hserver : ∀ id ∈ t.ids, c.cache.find? id = none → site.Identifies id)

/-- The known identities and the replies of the site give every id a name. -/
theorem Tree.exists_nameUnder (hknown : ∀ id ∈ t.ids, ∀ identity, c.cache.find? id = some identity →
      ∃ name, displayName identity = .ok name)
    (hserver : ∀ id ∈ t.ids, c.cache.find? id = none → site.Identifies id) :
    ∀ id ∈ t.ids, ∃ name, c.nameUnder site id = .ok name := by
  intro id hid
  unfold Client.nameUnder Client.identityOf
  cases hc : c.cache.find? id with
  | some identity => exact hknown id hid identity hc
  | none =>
    obtain ⟨identity, name, hidentity, hname⟩ := (hserver id hid hc).exists_name
    refine ⟨name, ?_⟩
    rw [hidentity]
    exact hname

include hs hf hknown hserver

/-- **Every identity is looked up once.**  Whatever the order of the turns, no id is ever expanded twice
or without need, and inquiries follow refused expansions only; when the walk cannot go on, each id
that was needed and not known has been expanded once. -/
theorem Walk.looks_up_once (verbose : Bool) (turns : List Turn) (w : Walk)
    (hw : (Walk.start c path).after? site verbose turns = some w) :
    ∃ requests, w.client.sent = requests.reverse ++ c.sent ∧ Walk.Sparing site t c requests ∧
      (w.Over site verbose → w.LookedUp site t c requests) := by
  have hn := Tree.exists_nameUnder hknown hserver
  obtain ⟨requests, done, due, n, h, -⟩ := (Sound.start site t path c).after hs hf hn hw
  refine ⟨requests.reverse, ?_, Walk.sparing_of_reached h.client, fun ho => h.lookedUp ho⟩
  rw [List.reverse_reverse]
  exact h.client.sent

end

/-! ### Two walks -/

/-- A client that knows the first identity of the project. -/
def Project.client : Client := .ofCache [("1", .object [("name", .text "ann")])]

theorem Project.identifies_two : Project.site.Identifies "2" where
  expand := by
    have hrefused : Project.site.receive (.expand "2") =
        .error (.network (.refused 404 "Not Found" "/v1/identity/expand")) := by cbv
    exact .inr ⟨_, hrefused⟩
  find := by
    refine .inl ⟨.object [("name", .text "ben")], Site.receive_answering (by cbv), _, rfl, ?_⟩
    exact hasTextName_put_text [] "ben"

/-- Over the project the known identity is not looked up, and the other one once, by both requests. -/
theorem Project.one_lookup : Project.client.cache.find? "2" = none ∧
    ∀ turns w, (Walk.start Project.client "/p/").after? Project.site false turns = some w →
      w.Over Project.site false →
        w.client.sent.count (.expand "1") = 0 ∧ w.client.sent.count (.expand "2") = 1 := by
  have hids : ∀ id ∈ Project.tree.ids, id = "1" ∨ id = "2" := by
    have : Project.tree.ids = ["1", "2", "1", "2"] := by decide +kernel
    rw [this]
    simp
  have hone : Project.client.cache.find? "1" = some (.object [("name", .text "ann")]) := by cbv
  have htwo : Project.client.cache.find? "2" = none := by cbv
  refine ⟨htwo, fun turns w hw ho => ?_⟩
  obtain ⟨requests, hsent, -, hlooked⟩ :=
    Walk.looks_up_once Project.tree_servedBy Project.finite
      (by
        intro id hid identity hk
        rcases hids id hid with rfl | rfl
        · rw [hone] at hk
          cases hk
          exact IsIdentity.exists_displayName ⟨_, rfl, hasTextName_put_text [] "ann"⟩
        · rw [htwo] at hk
          cases hk)
      (by
        intro id hid hc
        rcases hids id hid with rfl | rfl
        · rw [hone] at hc
          cases hc
        · exact Project.identifies_two)
      false turns w hw
  have hcount (r : Request) : w.client.sent.count r = requests.count r := by
    rw [hsent, List.count_append, List.count_reverse]
    rfl
  constructor
  · rw [hcount, (hlooked ho).expanded "1", if_neg (by simp [hone])]
  · rw [hcount, (hlooked ho).expanded "2", if_pos ⟨by decide +kernel, htwo⟩]

theorem Overflow.identifies : ∀ id ∈ Overflow.tree.ids, Overflow.site.Identifies id := by
  have hids : Overflow.tree.ids = ["1", "1", "2"] := by decide +kernel
  have expansion (name : String) :
      IsExpansion (.object [("id", .object [("name", .text name)])]) := by
    refine ⟨_, rfl, fun primary hp => ?_, fun others ho => by cases ho⟩
    cases hp
    exact ⟨_, rfl, hasTextName_put_text [] name⟩
  have refused (id : String) : ∃ why, Overflow.site.receive (.find id) = .error (.network why) := by
    refine ⟨.refused 404 "Not Found" "/v1/identity/find", ?_⟩
    simp [Overflow.site, Site.answering, Site.receive, Catalog.find?, Request.attributesOf, Request.pageOf,
      Site.url, Request.address]
  rw [hids]
  intro id hid
  refine ⟨.inl ?_, .inr (refused id)⟩
  simp only [List.mem_cons, List.not_mem_nil, or_false] at hid
  rcases hid with rfl | rfl | rfl
  · exact ⟨_, Site.receive_answering (by cbv), expansion "ann"⟩
  · exact ⟨_, Site.receive_answering (by cbv), expansion "ann"⟩
  · exact ⟨_, Site.receive_answering (by cbv), expansion "ben"⟩

/-- The cluster serves the tree and identifies both owners.  Still the infinite size ends the walk, and the
owner of the file after it is never looked up. -/
theorem Walk.lookup_missed_by_infinite_size :
    Overflow.tree.ServedBy Overflow.site "/d" ∧ (∀ id ∈ Overflow.tree.ids, Overflow.site.Identifies id) ∧
      "2" ∈ Overflow.tree.ids ∧ Client.fresh.cache.find? "2" = none ∧
      ∃ turns w, (Walk.start .fresh "/d").after? Overflow.site false turns = some w ∧
        w.Over Overflow.site false ∧ w.client.sent.count (.expand "2") = 0 := by
  obtain ⟨turns, w, hw, hover, -, -, hcount⟩ := Overflow.exists_walk
  refine ⟨Overflow.tree_servedBy, Overflow.identifies, by decide +kernel, rfl, turns, w, hw, hover, hcount⟩

end UsageLedger.Cluster
