/-
UsageLedger/Proofs/Cluster/Course.lean

How a client comes to the identity with an id that a site can expand.  A client does many
things at a time: `Step` is what it may do next, for this id and for others, and in a `Run`
it takes any number of steps.  The turns of a walk are such steps (`Walk.run_step?`).

What is done for other ids, even if their lookups fail, leaves the two clients in agreement
about this one (`Agree`).  So an id takes its own `Course`: nobody has asked for it, or its
expansion is under way, or the identity is known (`Course.step`, `Course.run`); and once
known it stays known, in later sessions and with other sites too (`Known.later`).
-/
import UsageLedger.Cluster.Walk
import UsageLedger.Proofs.Cluster.Lookup

namespace UsageLedger.Cluster

/-- The expansion of an id brings an identity. -/
def Site.Brings (site : Site) (id : String) (identity : Json) : Prop :=
  (site.receive (.expand id) >>= ofExpansion id) = .ok identity

namespace Client

/-! ### Runs -/

/-- What a client may do next. -/
inductive Step (site : Site) (c : Client) : Client → Prop
  | send (r : Request) : Step site c (c.send site r).1
  | ask (id : String) : Step site c (c.ask id)
  | advance (i : Nat) : Step site c (c.advance site i)
  | newSession : Step site c c.newSession

/-- What a client may come to with a site. -/
def Run (site : Site) : Client → Client → Prop := Relation.ReflTransGen (Step site)

/-- What a client may come to, whatever sites it goes to. -/
def Later : Client → Client → Prop := Relation.ReflTransGen fun c c' => ∃ site, Step site c c'

/-! ### The course of one id -/

variable {site : Site} {c c' : Client} {id : String} {identity : Json}

/-- The lookups of an id that are under way. -/
def pursuing (c : Client) (id : String) : List Lookup := c.underWay.filter (·.id = id)

/-- Nobody has asked for an id. -/
structure Unasked (c : Client) (id : String) : Prop where
  unknown : c.cache.find? id = none
  unfailed : c.failed.find? id = none
  quiet : c.pursuing id = []

/-- An id is being expanded. -/
structure Expanding (c : Client) (id : String) : Prop where
  unknown : c.cache.find? id = none
  unfailed : c.failed.find? id = none
  pursued : c.pursuing id = [⟨id, .expanding⟩]

/-- The identity with an id is known. -/
structure Known (c : Client) (id : String) (identity : Json) : Prop where
  cached : c.cache.find? id = some identity
  quiet : c.pursuing id = []

/-- How far a client has come to the identity with an id. -/
inductive Course (c : Client) (id : String) (identity : Json) : Prop
  | unasked : c.Unasked id → Course c id identity
  | expanding : c.Expanding id → Course c id identity
  | known : c.Known id identity → Course c id identity

/-- Two clients hold the same for an id. -/
structure Agree (c c' : Client) (id : String) : Prop where
  cache : c'.cache.find? id = c.cache.find? id
  failed : c'.failed.find? id = c.failed.find? id
  pursuing : (c'.pursuing id).Perm (c.pursuing id)

theorem Unasked.frame (h : c.Unasked id) (ha : c.Agree c' id) : c'.Unasked id where
  unknown := ha.cache.trans h.unknown
  unfailed := ha.failed.trans h.unfailed
  quiet := List.perm_nil.1 (h.quiet ▸ ha.pursuing)

theorem Expanding.frame (h : c.Expanding id) (ha : c.Agree c' id) : c'.Expanding id where
  unknown := ha.cache.trans h.unknown
  unfailed := ha.failed.trans h.unfailed
  pursued := List.perm_singleton.1 (h.pursued ▸ ha.pursuing)

theorem Known.frame (h : c.Known id identity) (ha : c.Agree c' id) : c'.Known id identity where
  cached := ha.cache.trans h.cached
  quiet := List.perm_nil.1 (h.quiet ▸ ha.pursuing)

/-! ### Asking -/

theorem agree_send (c : Client) (r : Request) : c.Agree (c.send site r).1 id := ⟨rfl, rfl, .refl _⟩

theorem any_underWay (c : Client) (id : String) :
    c.underWay.any (·.id = id) = !(c.pursuing id).isEmpty := by
  rw [Bool.eq_iff_iff, List.any_eq_true, Bool.not_eq_true', List.isEmpty_eq_false_iff, pursuing,
    Ne, List.filter_eq_nil_iff]
  push Not
  rfl

theorem agree_ask_of_ne {id' : String} (hne : id' ≠ id) (c : Client) : c.Agree (c.ask id') id := by
  unfold ask
  split
  · exact ⟨rfl, rfl, .refl _⟩
  · exact ⟨rfl, rfl, .refl _⟩
  · split
    · exact ⟨rfl, rfl, .refl _⟩
    · refine ⟨rfl, rfl, ?_⟩
      simp [pursuing, hne]

theorem Unasked.ask_eq (h : c.Unasked id) :
    c.ask id = { c with misses := c.misses + 1, underWay := c.underWay ++ [⟨id, .expanding⟩] } := by
  unfold ask standing
  simp [h.unknown, h.unfailed, any_underWay, h.quiet]

theorem Unasked.ask (h : c.Unasked id) : (c.ask id).Expanding id := by
  rw [h.ask_eq]
  refine ⟨h.unknown, h.unfailed, ?_⟩
  have hquiet := h.quiet
  unfold pursuing at hquiet ⊢
  rw [List.filter_append, hquiet]
  simp

theorem Expanding.ask (h : c.Expanding id) : c.ask id = c := by
  unfold Client.ask standing
  simp [h.unknown, h.unfailed, any_underWay, h.pursued]

theorem Known.ask (h : c.Known id identity) : c.ask id = { c with hits := c.hits + 1 } := by
  unfold Client.ask standing
  rw [h.cached]

/-! ### Lookups that go on -/

variable {i : Nat} {l : Lookup}

/-- What a turn of a lookup does for other ids: nothing. -/
theorem agree_advance_of_ne (hl : c.underWay[i]? = some l) (hne : l.id ≠ id) :
    c.Agree (c.advance site i) id := by
  -- Up to their order, the lookups are the one that goes on and the others.
  have hwhole := (perm_cons_eraseIdx hl).filter (·.id = id)
  rw [List.filter_cons_of_neg (by simpa using hne)] at hwhole
  have hset : ((c.underWay.set i ⟨l.id, .finding⟩).filter (·.id = id)).Perm (c.pursuing id) := by
    have hperm := (set_perm_cons_eraseIdx hl ⟨l.id, .finding⟩).filter (·.id = id)
    rw [List.filter_cons_of_neg (by simpa using hne)] at hperm
    exact hperm.trans hwhole.symm
  unfold advance
  rw [hl]
  dsimp only [send]
  cases Lookup.outcome? l (site.receive l.request) with
  | none => exact ⟨rfl, rfl, hset⟩
  | some outcome =>
    cases outcome with
    | ok found => exact ⟨(Catalog.find?_put ..).trans (if_neg hne), rfl, hwhole.symm⟩
    | error f => exact ⟨rfl, (Catalog.find?_put ..).trans (if_neg hne), hwhole.symm⟩

theorem mem_pursuing (hl : c.underWay[i]? = some l) : l ∈ c.pursuing l.id :=
  List.mem_filter.2 ⟨List.mem_of_getElem? hl, by simp⟩

theorem not_pursued (hq : c.pursuing l.id = []) : c.underWay[i]? ≠ some l := by
  intro hl
  have hmem := mem_pursuing hl
  rw [hq] at hmem
  cases hmem

theorem Expanding.exists_getElem? (h : c.Expanding id) :
    ∃ i : Nat, c.underWay[i]? = some ⟨id, .expanding⟩ := by
  have hmem : (⟨id, .expanding⟩ : Lookup) ∈ c.pursuing id := by
    rw [h.pursued]
    exact List.mem_singleton.2 rfl
  exact List.mem_iff_getElem?.1 (List.mem_of_mem_filter hmem)

theorem Expanding.eq_of_mem (h : c.Expanding id) (hl : c.underWay[i]? = some l) (hid : l.id = id) :
    l = ⟨id, .expanding⟩ := by
  have hmem := mem_pursuing hl
  rw [hid, h.pursued] at hmem
  exact List.mem_singleton.1 hmem

/-- What a turn of an expansion does that brings an identity. -/
theorem advance_expansion (hb : site.Brings id identity) (hl : c.underWay[i]? = some ⟨id, .expanding⟩) :
    c.advance site i =
      { c with
        underWay := c.underWay.eraseIdx i
        cache := c.cache.put id identity
        sent := .expand id :: c.sent } := by
  obtain ⟨body, hr, ho⟩ := bind_eq_ok.1 hb
  unfold advance
  simp only [hl, send, Lookup.request, hr, Lookup.outcome?, ho, settle]

theorem Expanding.advance (h : c.Expanding id) (hb : site.Brings id identity)
    (hl : c.underWay[i]? = some l) (hid : l.id = id) : (c.advance site i).Known id identity := by
  obtain rfl := h.eq_of_mem hl hid
  -- It was the only lookup of this id.
  have hrest : (c.underWay.eraseIdx i).filter (·.id = id) = [] := by
    have hperm := (perm_cons_eraseIdx hl).filter (·.id = id)
    rw [List.filter_cons_of_pos (by simp)] at hperm
    have hone := hperm.symm.trans (.of_eq h.pursued)
    exact List.perm_nil.1 ((List.perm_cons _).1 hone)
  rw [advance_expansion hb hl]
  exact ⟨(Catalog.find?_put ..).trans (if_pos rfl), hrest⟩

/-! ### Steps and runs -/

/-- Whatever a client does next, for an id it changes nothing, or it begins a new session, or asks for
this id, or goes on with a lookup of it. -/
theorem Step.cases_id (hs : c.Step site c') (id : String) :
    c.Agree c' id ∨ c' = c.newSession ∨ c' = c.ask id ∨
      ∃ i l, c.underWay[i]? = some l ∧ l.id = id ∧ c' = c.advance site i := by
  cases hs with
  | send r => exact .inl (agree_send c r)
  | newSession => exact .inr (.inl rfl)
  | ask id' =>
    by_cases hid : id' = id
    · exact .inr (.inr (.inl (by rw [hid])))
    · exact .inl (agree_ask_of_ne hid c)
  | advance i =>
    cases hl : c.underWay[i]? with
    | none =>
      have hsame : c.advance site i = c := by
        unfold Client.advance
        rw [hl]
      rw [hsame]
      exact .inl ⟨rfl, rfl, .refl _⟩
    | some l =>
      by_cases hid : l.id = id
      · exact .inr (.inr (.inr ⟨i, l, hl, hid, rfl⟩))
      · exact .inl (agree_advance_of_ne hl hid)

/-- What is known stays known, whatever the site is. -/
theorem Known.step (h : c.Known id identity) (hs : c.Step site c') : c'.Known id identity := by
  obtain ha | rfl | rfl | ⟨i, l, hl, rfl, -⟩ := hs.cases_id id
  · exact h.frame ha
  · exact ⟨h.cached, rfl⟩
  · rw [h.ask]
    exact ⟨h.cached, h.quiet⟩
  · exact absurd hl (not_pursued h.quiet)

theorem Known.later (h : c.Known id identity) (hl : c.Later c') : c'.Known id identity := by
  induction hl with
  | refl => exact h
  | tail _ hs ih =>
    obtain ⟨site, hs⟩ := hs
    exact ih.step hs

/-- **One step** takes an id on in its course, or leaves it where it is, or begins anew. -/
theorem Course.step (h : c.Course id identity) (hb : site.Brings id identity) (hs : c.Step site c') :
    c'.Course id identity := by
  cases h with
  | unasked h =>
    obtain ha | rfl | rfl | ⟨i, l, hl, rfl, -⟩ := hs.cases_id id
    · exact .unasked (h.frame ha)
    · exact .unasked ⟨h.unknown, rfl, rfl⟩
    · exact .expanding h.ask
    · exact absurd hl (not_pursued h.quiet)
  | expanding h =>
    obtain ha | rfl | rfl | ⟨i, l, hl, hid, rfl⟩ := hs.cases_id id
    · exact .expanding (h.frame ha)
    · -- A new session forgets what is under way.
      exact .unasked ⟨h.unknown, rfl, rfl⟩
    · rw [h.ask]
      exact .expanding h
    · exact .known (h.advance hb hl hid)
  | known h => exact .known (h.step hs)

theorem Course.run (h : c.Course id identity) (hb : site.Brings id identity) (hr : c.Run site c') :
    c'.Course id identity := by
  induction hr with
  | refl => exact h
  | tail _ hs ih => exact ih.step hb hs

end Client

/-! ### Walks -/

namespace Walk

variable {site : Site} {verbose : Bool} {w w' : Walk} {c c' : Client}

theorem client_readOn (verbose : Bool) (w : Walk) (cursor : Cursor) :
    (w.readOn verbose cursor).client = w.client := by
  unfold readOn
  dsimp only
  split
  · rfl
  · rfl
  · split <;> rfl

theorem client_read (verbose : Bool) (w : Walk) (directory : String) (below : List String) (page : Json) :
    (w.read verbose directory below page).client = w.client := by
  unfold read
  split
  · rfl
  · exact client_readOn ..

theorem client_arrive (verbose : Bool) (w : Walk) (v : Visit) (cursor? : Option Cursor) :
    (w.arrive verbose v cursor?).client = w.client := by
  have hvisit : (if v.node.kind.isCounted then { w with past := .visit v :: w.past } else w).client =
      w.client := by
    split <;> rfl
  unfold arrive
  dsimp only
  split
  · exact (client_readOn ..).trans hvisit
  · split <;> exact hvisit

theorem run_taskTurn? {i : Nat} (h : w.taskTurn? site verbose i = some w') :
    w.client.Run site w'.client := by
  unfold taskTurn? at h
  split at h
  · cases h
  · rename_i path _
    dsimp only [Client.attributes] at h
    split at h <;> obtain rfl := Option.some.inj h
    · exact .single (.send (.attributesOf path))
    · exact .single (.send (.attributesOf path))
  · rename_i directory after? below _
    dsimp only [Client.page] at h
    split at h <;> obtain rfl := Option.some.inj h
    · exact .single (.send (.pageOf directory pageLimit after?))
    · rw [client_read]
      exact .single (.send (.pageOf directory pageLimit after?))
  · split at h
    · split at h <;> obtain rfl := Option.some.inj h
      · exact .refl
      · rw [client_arrive]
        exact .refl
    · cases h

theorem run_sideTurn? {side : Side} {r : Except Fault Side} (h : sideTurn? c side = some (c', r)) :
    c.Run site c' := by
  unfold sideTurn? at h
  split at h
  · rename_i id
    have hc : (Naming.ofId c id).1 = c' := congrArg Prod.fst (Option.some.inj h)
    subst hc
    unfold Naming.ofId
    split
    · exact .single (.ask _)
    · exact .refl
  · split at h
    · cases h
    · obtain ⟨rfl, -⟩ := Prod.mk.inj (Option.some.inj h)
      exact .refl
  · cases h

theorem client_withSide (w : Walk) (i : Nat) (turn : Client × Except Fault Side) (task : Side → Task) :
    (w.withSide i turn task).client = turn.1 := by
  unfold withSide
  split <;> rfl

/-- **What a turn of a walk does** to the client is something that a client may do. -/
theorem run_step? {turn : Turn} (h : w.step? site verbose turn = some w') :
    w.client.Run site w'.client := by
  have hside {side : Side} {i : Nat} {task : Side → Task}
      (h : (sideTurn? w.client side).map (fun t => w.withSide i t task) = some w') :
      w.client.Run site w'.client := by
    obtain ⟨⟨c, r⟩, ht, rfl⟩ := Option.map_eq_some_iff.1 h
    rw [client_withSide]
    exact run_sideTurn? ht
  cases turn with
  | task i => exact run_taskTurn? h
  | owner i =>
    rw [step?] at h
    split at h
    · exact hside h
    · cases h
  | group i =>
    rw [step?] at h
    split at h
    · exact hside h
    · cases h
  | lookup i =>
    rw [step?] at h
    split at h
    · cases h
    · dsimp only at h
      split at h <;> obtain rfl := Option.some.inj h
      · exact .single (.advance i)
      · exact .single (.advance i)

end Walk

end UsageLedger.Cluster
