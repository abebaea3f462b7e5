/-
UsageLedger/Proofs/Cluster/Lookup.lean

What becomes of the ids for which a client asks.  Each id has a phase of its own:
it is known from before the session, nobody has asked for it, a lookup of it is
under way, or its identity has been learned.  `Phase` ties the phase of an id to
the requests that were made for it, so whatever else is under way, an id is
expanded at most once, and an inquiry for it follows only a refused expansion.

A step of the client moves one id on and leaves the phases of all others alone
(`Phase.frame`).  The steps keep `Client.Reached` (`Reached.send`, `Reached.ask`,
`Reached.advance`), the last one for lookups that bring an identity.

What a lookup brings does not depend on when it goes on: it is `Site.resolve`, and
what a client knows at any time agrees with `Client.identityOf`.
-/
import Mathlib.Data.List.Nodup
import Mathlib.Data.List.Perm.Basic
import Mathlib.Algebra.BigOperators.Group.List.Basic
import UsageLedger.Cluster.Client

namespace UsageLedger.Cluster

/-! ### One of a list and the others -/

section

variable {α : Type} {l : List α} {i : ℕ} {a : α}

theorem perm_cons_eraseIdx (h : l[i]? = some a) : l.Perm (a :: l.eraseIdx i) := by
  obtain ⟨hi, rfl⟩ := List.getElem?_eq_some_iff.1 h
  exact (List.getElem_cons_eraseIdx_perm hi).symm

theorem set_perm_cons_eraseIdx (h : l[i]? = some a) (b : α) : (l.set i b).Perm (b :: l.eraseIdx i) := by
  obtain ⟨hi, _⟩ := List.getElem?_eq_some_iff.1 h
  exact List.set_perm_cons_eraseIdx hi b

end

/-! ### Lookups from beginning to end -/

/-- An expansion is refused, or the connection fails, so that an inquiry follows. -/
def Site.Refuses (site : Site) (id : String) : Prop :=
  ∃ why, site.receive (.expand id) = .error (.network why)

/-- The identity that a lookup brings. -/
def Site.resolve (site : Site) (id : String) : Except Fault Json :=
  match site.receive (.expand id) with
  | .error (.network _) => ofInquiry id (site.receive (.find id))
  | .error f => .error f
  | .ok body => ofExpansion id body

/-- The requests of a lookup, latest first. -/
def Site.exchange (site : Site) (id : String) : List Request :=
  match site.receive (.expand id) with
  | .error (.network _) => [.find id, .expand id]
  | _ => [.expand id]

/-- The requests that a lookup under way has made. -/
def Lookup.spent (l : Lookup) : List Request :=
  match l.stage with
  | .expanding => []
  | .finding => [.expand l.id]

/-- Whether a request asks for the identity with an id. -/
def Request.concerns (id : String) : Request → Bool
  | .expand id' => id' = id
  | .find id' => id' = id
  | _ => false

/-- Whether a request asks for an expansion. -/
def Request.isExpansion : Request → Bool
  | .expand _ => true
  | _ => false

variable {site : Site} {id : String} {l : Lookup}

theorem Lookup.concerns_request (l : Lookup) : l.request.concerns id = decide (l.id = id) := by
  obtain ⟨id', stage⟩ := l
  cases stage <;> rfl

theorem Lookup.isExpansion_request (l : Lookup) :
    l.request.isExpansion = decide (l.stage = .expanding) := by
  obtain ⟨id', stage⟩ := l
  cases stage <;> rfl

/-- A reply makes an inquiry necessary, or it ends the lookup, and then with what the whole lookup
brings and after all its requests. -/
theorem Lookup.outcome_cases (l : Lookup) (hr : l.stage = .finding → site.Refuses l.id) :
    (l.stage = .expanding ∧ site.Refuses l.id ∧ Client.Lookup.outcome? l (site.receive l.request) = none) ∨
      (Client.Lookup.outcome? l (site.receive l.request) = some (site.resolve l.id) ∧
        l.request :: l.spent = site.exchange l.id) := by
  obtain ⟨id, stage⟩ := l
  cases stage with
  | expanding =>
    simp only [Lookup.request, Client.Lookup.outcome?, Lookup.spent, Site.resolve, Site.exchange,
      Site.Refuses]
    cases hreply : site.receive (.expand id) with
    | ok body => simp
    | error f => cases f <;> simp
  | finding =>
    obtain ⟨why, hwhy⟩ := hr rfl
    simp only [Lookup.request, Client.Lookup.outcome?, Lookup.spent, Site.resolve, Site.exchange]
    simp [hwhy]

/-! ### Phases -/

namespace Client

/-- The identity with an id, as it is known to a client or else brought by a lookup. -/
def identityOf (site : Site) (c : Client) (id : String) : Except Fault Json :=
  match c.cache.find? id with
  | some identity => .ok identity
  | none => site.resolve id

/-- No lookup of an id is under way. -/
def Quiet (c : Client) (id : String) : Prop := ∀ l ∈ c.underWay, l.id ≠ id

/-- How it stands with an id, after these requests for it, in a client that began as another one and
has asked for wanted ids only. -/
inductive Phase (site : Site) (wanted : String → Prop) (c c₀ : Client) (id : String) :
    List Request → Prop
  | kept {identity : Json} : c₀.cache.find? id = some identity → c.cache.find? id = some identity →
      c.Quiet id → Phase site wanted c c₀ id []
  | unasked : c₀.cache.find? id = none → c.cache.find? id = none → c.Quiet id →
      Phase site wanted c c₀ id []
  | underWay {l : Lookup} : c₀.cache.find? id = none → c.cache.find? id = none → wanted id →
      l ∈ c.underWay → l.id = id → (l.stage = .finding → site.Refuses id) →
      Phase site wanted c c₀ id l.spent
  | learned {identity : Json} : c₀.cache.find? id = none → c.cache.find? id = some identity →
      wanted id → site.resolve id = .ok identity → c.Quiet id →
      Phase site wanted c c₀ id (site.exchange id)

/-- What a client has come to since it began as another one, after some requests, latest first.  Every
identity asked for so far was wanted, and no lookup has failed. -/
structure Reached (site : Site) (wanted : String → Prop) (c c₀ : Client) (requests : List Request) :
    Prop where
  sent : c.sent = requests ++ c₀.sent
  failed : c.failed = []
  nodup : (c.underWay.map Lookup.id).Nodup
  phase : ∀ id, Phase site wanted c c₀ id (requests.filter (Request.concerns id))
  /-- A miss is counted when a lookup begins, so before its expansion is asked for. -/
  misses : c.misses = c₀.misses + requests.countP Request.isExpansion +
    c.underWay.countP (·.stage = .expanding)

variable {wanted : String → Prop} {c₀ c c' : Client} {requests : List Request} {identity : Json}

/-- The phase of an id depends on what the client holds for that id alone. -/
theorem Phase.frame (h : Phase site wanted c c₀ id requests)
    (hcache : c'.cache.find? id = c.cache.find? id)
    (hunder : ∀ l : Lookup, l.id = id → (l ∈ c'.underWay ↔ l ∈ c.underWay)) :
    Phase site wanted c' c₀ id requests := by
  have quiet (hq : c.Quiet id) : c'.Quiet id := fun l hl hid => hq l ((hunder l hid).1 hl) hid
  cases h with
  | kept h₀ hk hq => exact .kept h₀ (hcache ▸ hk) (quiet hq)
  | unasked h₀ hn hq => exact .unasked h₀ (hcache ▸ hn) (quiet hq)
  | underWay h₀ hn hw hl hid hr =>
    exact .underWay h₀ (hcache ▸ hn) hw ((hunder _ hid).2 hl) hid hr
  | learned h₀ hk hw hi hq => exact .learned h₀ (hcache ▸ hk) hw hi (quiet hq)

/-- What a client knows is what its beginning knew or what a lookup brings. -/
theorem Reached.identityOf_eq (h : c.Reached site wanted c₀ requests)
    (hi : c.cache.find? id = some identity) : c₀.identityOf site id = .ok identity := by
  have hp := h.phase id
  generalize requests.filter (Request.concerns id) = made at hp
  unfold identityOf
  cases hp with
  | kept h₀ hk _ =>
    rw [hi] at hk
    cases hk
    rw [h₀]
  | unasked _ hn _ =>
    rw [hi] at hn
    cases hn
  | underWay _ hn _ _ _ _ =>
    rw [hi] at hn
    cases hn
  | learned h₀ hk _ hr _ =>
    rw [hi] at hk
    cases hk
    rw [h₀]
    exact hr

/-- While a lookup is under way its id is wanted, is not known, and has come as far as the lookup. -/
theorem Reached.of_underWay (h : c.Reached site wanted c₀ requests) (hl : l ∈ c.underWay) :
    c₀.cache.find? l.id = none ∧ c.cache.find? l.id = none ∧ wanted l.id ∧
      (l.stage = .finding → site.Refuses l.id) ∧
      requests.filter (Request.concerns l.id) = l.spent := by
  have hp := h.phase l.id
  generalize hreq : requests.filter (Request.concerns l.id) = spent at hp
  cases hp with
  | kept _ _ hq => exact absurd rfl (hq l hl)
  | unasked _ _ hq => exact absurd rfl (hq l hl)
  | @underWay l' h₀ hn hw hl' hid hr =>
    -- No two lookups under way share an id.
    obtain rfl : l' = l := List.inj_on_of_nodup_map h.nodup hl' hl hid
    exact ⟨h₀, hn, hw, hr, rfl⟩
  | learned _ _ _ _ hq => exact absurd rfl (hq l hl)

theorem reached_newSession (site : Site) (wanted : String → Prop) (c : Client) :
    c.newSession.Reached site wanted c [] where
  sent := rfl
  failed := rfl
  nodup := .nil
  phase := by
    intro id
    have hq : c.newSession.Quiet id := fun l hl => absurd hl List.not_mem_nil
    cases hc : c.cache.find? id with
    | none => exact .unasked hc hc hq
    | some identity => exact .kept hc hc hq
  misses := rfl

/-! ### Steps -/

/-- A request that concerns no identity. -/
theorem Reached.send (h : c.Reached site wanted c₀ requests) {r : Request}
    (hr : ∀ id, r.concerns id = false) :
    (c.send site r).1.Reached site wanted c₀ (r :: requests) where
  sent := by
    show r :: c.sent = r :: requests ++ c₀.sent
    rw [h.sent, List.cons_append]
  failed := h.failed
  nodup := h.nodup
  phase := by
    intro id
    rw [List.filter_cons_of_neg (by simp [hr id])]
    exact (h.phase id).frame rfl fun _ _ => Iff.rfl
  misses := by
    have hexp : r.isExpansion = false := by
      cases r with
      | expand id => simpa [Request.concerns] using hr id
      | _ => rfl
    show c.misses = _
    rw [h.misses, List.countP_cons_of_neg (by simp [hexp])]
    rfl

/-- What a client holds for an id: an identity, or a lookup that will bring one. -/
def Holds (c : Client) (id : String) : Prop :=
  (∃ identity, c.cache.find? id = some identity) ∨ ∃ l ∈ c.underWay, l.id = id

/-- What asking does where no lookup has failed. -/
theorem ask_cases (c : Client) (id : String) (hf : c.failed = []) :
    ((∃ identity, c.cache.find? id = some identity) ∧ c.ask id = { c with hits := c.hits + 1 }) ∨
      (c.cache.find? id = none ∧ (∃ l ∈ c.underWay, l.id = id) ∧ c.ask id = c) ∨
      (c.cache.find? id = none ∧ c.Quiet id ∧ c.ask id =
        { c with misses := c.misses + 1, underWay := c.underWay ++ [⟨id, .expanding⟩] }) := by
  unfold ask standing
  rw [hf]
  cases c.cache.find? id with
  | some identity => exact .inl ⟨⟨identity, rfl⟩, rfl⟩
  | none =>
    by_cases hu : ∃ l ∈ c.underWay, l.id = id
    · refine .inr (.inl ⟨rfl, hu, ?_⟩)
      have hany : c.underWay.any (·.id = id) = true := by simpa using hu
      simp [Catalog.find?, hany]
    · refine .inr (.inr ⟨rfl, fun l hl hid => hu ⟨l, hl, hid⟩, ?_⟩)
      have hany : c.underWay.any (·.id = id) = false := by simpa using hu
      simp [Catalog.find?, hany]

/-- Asking for a wanted id. -/
theorem Reached.ask (h : c.Reached site wanted c₀ requests) (hw : wanted id) :
    (c.ask id).Reached site wanted c₀ requests := by
  obtain ⟨_, he⟩ | ⟨_, _, he⟩ | ⟨hn, hq, he⟩ := ask_cases c id h.failed <;> rw [he]
  · -- A hit changes nothing but the count of hits.
    exact ⟨h.sent, h.failed, h.nodup, fun id' => (h.phase id').frame rfl fun _ _ => Iff.rfl,
      h.misses⟩
  · exact h
  · refine ⟨h.sent, h.failed, ?_, fun id' => ?_, ?_⟩
    · rw [List.map_append, List.nodup_append]
      refine ⟨h.nodup, List.nodup_singleton id, ?_⟩
      rintro a ha b hb rfl
      obtain ⟨l, hl, hid⟩ := List.mem_map.1 ha
      exact hq l hl (hid.trans (List.mem_singleton.1 hb))
    · by_cases hid : id = id'
      · -- Of this id there has been no request yet: it was neither known nor under way.
        subst hid
        have hp := h.phase id
        generalize requests.filter (Request.concerns id) = made at hp
        cases hp with
        | kept _ hk _ =>
          rw [hn] at hk
          cases hk
        | unasked h₀ _ _ =>
          exact .underWay (l := ⟨id, .expanding⟩) h₀ hn hw (by simp) rfl (by simp)
        | underWay _ _ _ hl hid _ => exact absurd hid (hq _ hl)
        | learned _ hk _ _ _ =>
          rw [hn] at hk
          cases hk
      · refine (h.phase id').frame rfl fun l hl => ?_
        have hne : l ≠ ⟨id, .expanding⟩ := fun he => hid (by rw [← hl, he])
        simp [hne]
    · show c.misses + 1 = _
      rw [h.misses, List.countP_append, List.countP_singleton]
      rfl

theorem holds_ask (hf : c.failed = []) (id : String) : (c.ask id).Holds id := by
  obtain ⟨hk, he⟩ | ⟨_, hu, he⟩ | ⟨_, _, he⟩ := ask_cases c id hf <;> rw [he]
  · exact .inl hk
  · exact .inr hu
  · exact .inr ⟨⟨id, .expanding⟩, by simp, rfl⟩

/-- What a turn of a lookup does that brings an identity: it goes on to an inquiry, or it ends. -/
theorem advance_cases (c : Client) {i : ℕ} (hl : c.underWay[i]? = some l)
    (hr : l.stage = .finding → site.Refuses l.id) (hi : site.resolve l.id = .ok identity) :
    (l.stage = .expanding ∧ site.Refuses l.id ∧ c.advance site i =
        { c with underWay := c.underWay.set i ⟨l.id, .finding⟩, sent := l.request :: c.sent }) ∨
      (l.request :: l.spent = site.exchange l.id ∧ c.advance site i =
        { c with
          underWay := c.underWay.eraseIdx i
          cache := c.cache.put l.id identity
          sent := l.request :: c.sent }) := by
  unfold advance
  rw [hl]
  obtain ⟨hs, href, ho⟩ | ⟨ho, he⟩ := l.outcome_cases hr
  · refine .inl ⟨hs, href, ?_⟩
    simp only [send, ho]
  · refine .inr ⟨he, ?_⟩
    simp only [send, ho, hi, settle]

/-- A lookup makes its next request. -/
theorem Reached.advance (h : c.Reached site wanted c₀ requests) {i : ℕ}
    (hl : c.underWay[i]? = some l) (hi : site.resolve l.id = .ok identity) :
    (c.advance site i).Reached site wanted c₀ (l.request :: requests) := by
  have hperm := perm_cons_eraseIdx hl
  obtain ⟨h₀, hn, hw, href, hspent⟩ := h.of_underWay (hperm.mem_iff.2 List.mem_cons_self)
  -- The other lookups are for other ids.
  have hnodup : l.id ∉ (c.underWay.eraseIdx i).map Lookup.id ∧
      ((c.underWay.eraseIdx i).map Lookup.id).Nodup := by
    simpa using (hperm.map Lookup.id).nodup_iff.1 h.nodup
  have others {l' : Lookup} (hid : l'.id ≠ l.id) :
      l' ∈ c.underWay ↔ l' ∈ c.underWay.eraseIdx i := by
    rw [hperm.mem_iff, List.mem_cons]
    exact or_iff_right fun he => hid (he ▸ rfl)
  have hfilter (id : String) : (l.request :: requests).filter (Request.concerns id) =
      if l.id = id then l.request :: requests.filter (Request.concerns id)
      else requests.filter (Request.concerns id) := by
    by_cases hid : l.id = id <;> simp [l.concerns_request, hid]
  have hsent : l.request :: c.sent = (l.request :: requests) ++ c₀.sent := by
    rw [h.sent, List.cons_append]
  have hcount := hperm.countP_eq (·.stage = .expanding)
  obtain ⟨hs, hrefused, he⟩ | ⟨hexchange, he⟩ := c.advance_cases hl href hi <;> rw [he]
  · have hset := set_perm_cons_eraseIdx hl ⟨l.id, .finding⟩
    refine ⟨hsent, h.failed, ?_, fun id => ?_, ?_⟩
    · exact (hset.map Lookup.id).nodup_iff.2 (List.nodup_cons.2 hnodup)
    · rw [hfilter]
      split
      · rename_i hid
        subst hid
        rw [hspent]
        have hmade : l.request :: l.spent = Lookup.spent ⟨l.id, .finding⟩ := by
          obtain ⟨id, stage⟩ := l
          cases hs
          rfl
        rw [hmade]
        exact .underWay h₀ hn hw (hset.mem_iff.2 List.mem_cons_self) rfl fun _ => hrefused
      · rename_i hid
        refine (h.phase id).frame rfl fun l' hl' => ?_
        have hne : l'.id ≠ l.id := fun he => hid (he.symm.trans hl')
        rw [others hne, hset.mem_iff, List.mem_cons]
        exact or_iff_right fun he => hne (he ▸ rfl)
    · show c.misses = _
      rw [h.misses, hcount, hset.countP_eq, List.countP_cons, List.countP_cons, List.countP_cons,
        l.isExpansion_request, hs]
      simp
      omega
  · refine ⟨hsent, h.failed, hnodup.2, fun id => ?_, ?_⟩
    · rw [hfilter]
      split
      · rename_i hid
        subst hid
        rw [hspent, hexchange]
        refine .learned h₀ ?_ hw hi fun l' hl' he => hnodup.1 (he ▸ List.mem_map_of_mem hl')
        rw [Catalog.find?_put, if_pos rfl]
      · rename_i hid
        refine (h.phase id).frame ?_ fun l' hl' => ?_
        · rw [Catalog.find?_put, if_neg hid]
        · exact (others fun he => hid (he.symm.trans hl')).symm
    · show c.misses = c₀.misses + (l.request :: requests).countP Request.isExpansion +
        (c.underWay.eraseIdx i).countP (·.stage = .expanding)
      rw [h.misses, hcount, List.countP_cons, List.countP_cons, l.isExpansion_request]
      omega

end Client

end UsageLedger.Cluster
