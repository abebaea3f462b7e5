/-
UsageLedger/Proofs/Cluster/Resolved.lean

What those are told who ask for the name of an id that can be expanded.  The name is not the
result of one call: whoever asks waits while the client goes on.  So the main statement,
`Client.tells_chosen_name`, is about every run of a client: at each point the name is still
awaited, and then one more request brings it, or it is the one chosen among the identity and
its equivalents, and stays so (`Settled`).
-/
import UsageLedger.Proofs.Cluster.Course
import UsageLedger.Proofs.Cluster.DisplayName
import UsageLedger.Proofs.Cluster.Served

namespace UsageLedger.Cluster

namespace Client

/-! ### Names -/

variable {site : Site} {c : Client} {id name identity : Json}

/-- Whoever waits for the name of an id is told it, and so is whoever asks, without a request. -/
structure Answers (c : Client) (id name : Json) : Prop where
  poll : (Naming.awaited id.display).poll c = .ok (.known name)
  ofId : Naming.ofId c id = ({ c with hits := c.hits + 1 }, .ok (.known name))

theorem Known.answers (h : c.Known id.display identity) (hp : id.isPresent = true)
    (hn : displayName identity = .ok name) : c.Answers id name := by
  have hpoll (c : Client) (h : c.cache.find? id.display = some identity) :
      (Naming.awaited id.display).poll c = .ok (.known name) := by
    simp [Naming.poll, standing, h, hn, Except.map]
  refine ⟨hpoll c h.cached, ?_⟩
  unfold Naming.ofId
  rw [if_pos hp, h.ask]
  exact congrArg _ (hpoll _ h.cached)

/-- An id that is not known yet has no name yet. -/
theorem poll_pending (hc : c.cache.find? id.display = none) (hf : c.failed.find? id.display = none) :
    (Naming.awaited id.display).poll c = .ok (.awaited id.display) := by
  simp [Naming.poll, standing, hc, hf]

theorem finish_of_quiet (h : c.underWay = []) : c.finish site = (c, []) := by
  rw [finish]
  split
  · rfl
  · rename_i hl
    rw [h] at hl
    cases hl

/-- A lookup that brings an identity in one turn. -/
theorem finish_of_known {l : Lookup} {rest : List Lookup} (h : c.underWay = l :: rest)
    (hk : (c.advance site 0).cache.find? l.id = some identity) :
    c.finish site = (((c.advance site 0).finish site).1, l.id :: ((c.advance site 0).finish site).2) := by
  have hstanding : (c.advance site 0).standing l.id = .known identity := by
    unfold standing
    rw [hk]
  rw [finish]
  split
  · rename_i hl
    rw [h] at hl
    cases hl
  · rename_i hl
    rw [h] at hl
    obtain ⟨rfl, rfl⟩ := List.cons.inj hl
    simp only [hstanding]

/-- A client with nothing else to do that asks for a name and waits for it is told the name. -/
theorem Unasked.names (h : c.Unasked id.display) (hp : id.isPresent = true) (hu : c.underWay = [])
    (hb : site.Brings id.display identity) (hn : displayName identity = .ok name) :
    (c.names site [id]).2 = .ok [name] := by
  have hexpanding := h.ask
  have hask : (c.ask id.display).underWay = [⟨id.display, .expanding⟩] := by
    rw [h.ask_eq, hu]
    rfl
  have hpending := poll_pending (c := c.ask id.display) hexpanding.unknown hexpanding.unfailed
  have hasked : c.askAll [id] = (c.ask id.display, [.ok (.awaited id.display)]) := by
    simp only [askAll, Naming.ofId, if_pos hp, hpending]
  generalize c.ask id.display = c₁ at *
  -- The one lookup takes one turn, and then none is under way.
  have hfirst : c₁.underWay[0]? = some ⟨id.display, .expanding⟩ := by rw [hask]; rfl
  have hknown := hexpanding.advance hb hfirst rfl
  have hfailed : (c₁.advance site 0).failed.find? id.display = none := by
    rw [advance_expansion hb hfirst]
    exact hexpanding.unfailed
  have hdone : (c₁.advance site 0).underWay = [] := by
    rw [advance_expansion hb hfirst, hask]
    rfl
  have hfinish : c₁.finish site = (c₁.advance site 0, [id.display]) := by
    rw [finish_of_known hask hknown.cached, finish_of_quiet hdone]
  have hpoll : (Naming.awaited id.display).poll (c₁.advance site 0) = .ok (.known name) :=
    (hknown.answers hp hn).poll
  unfold Client.names
  simp only [isInterrupted, hasked, hfinish, List.any_cons, hfailed, reduceCtorEq, decide_false,
    List.any_nil, Bool.or_self, Bool.false_eq_true, ↓reduceIte, Option.isNone_none,
    List.findSome?_cons_of_isNone, List.findSome?_nil, Except.toOption, Option.some.injEq,
    List.filterMap_cons_some, List.filterMap_nil, Naming.faultOn?, hpoll, ite_self, Option.or_self,
    List.mapM_cons, List.mapM_nil, bind_pure_comp, map_pure]
  rfl

/-- From now on a client tells the name of an id to whoever waits or asks for it. -/
def Settled (c : Client) (id name : Json) : Prop := ∀ c', c.Later c' → c'.Answers id name

/-- **An identity that is expanded** goes by the name chosen among it and its equivalents.  A client
that waits for nothing else is told this name.  At any point of any run the client tells it from now on,
or it is still awaited and one more request brings it. -/
theorem tells_chosen_name {body : Json} {primary : Catalog String Json}
    {equivalents : List (Catalog String Json)} (hp : id.isPresent = true)
    (hc : c.Unasked id.display) (hr : site.receive (.expand id.display) = .ok body)
    (he : Expands body primary equivalents) :
    ∃ chosen, (∀ n, Chosen primary equivalents n ↔ n = chosen) ∧
      (c.underWay = [] → (c.names site [id]).2 = .ok [.text (shown primary chosen)]) ∧
      ∀ c', c.Run site c' →
        c'.Settled id (.text (shown primary chosen)) ∨
          (Naming.awaited id.display).poll c' = .ok (.awaited id.display) ∧
            ∃ i : Nat, (c'.ask id.display).underWay[i]? = some ⟨id.display, .expanding⟩ ∧
              ((c'.ask id.display).advance site i).Settled id (.text (shown primary chosen)) := by
  obtain ⟨identity, chosen, hof, hchosen, hname⟩ := displayName_ofExpansion he id.display
  have hb : site.Brings id.display identity := bind_eq_ok.2 ⟨body, hr, hof⟩
  have hsettled {c : Client} (h : c.Known id.display identity) :
      c.Settled id (.text (shown primary chosen)) := fun c' hl => (h.later hl).answers hp hname
  have hexpanding {c : Client} (h : c.Expanding id.display) :
      ∃ i : Nat, c.underWay[i]? = some ⟨id.display, .expanding⟩ ∧
        (c.advance site i).Settled id (.text (shown primary chosen)) := by
    obtain ⟨i, hi⟩ := h.exists_getElem?
    exact ⟨i, hi, hsettled (h.advance hb hi rfl)⟩
  refine ⟨chosen, fun n => ⟨fun hn => hn.unique hchosen, fun hn => hn ▸ hchosen⟩,
    fun hu => hc.names hp hu hb hname, fun c' hrun => ?_⟩
  cases (Course.unasked hc).run hb hrun with
  | unasked h => exact .inr ⟨poll_pending h.unknown h.unfailed, hexpanding h.ask⟩
  | expanding h => exact .inr ⟨poll_pending h.unknown h.unfailed, hexpanding (h.ask.symm ▸ h)⟩
  | known h => exact .inl (hsettled h)

end Client

/-! ### A POSIX user with equivalents -/

namespace Linked

/-- A POSIX user without a name. -/
def primary : Catalog String Json := [("domain", .text "POSIX_USER"), ("uid", .int 2005)]

/-- A record with a domain and a name. -/
def record (domain name : String) : Catalog String Json :=
  [("domain", .text domain), ("name", .text name)]

/-- Its equivalents: the best ranked one has no name either, and two share the next rank. -/
def equivalents : List (Catalog String Json) :=
  [ record "POSIX_GROUP" "staff", record "ACTIVE_DIRECTORY" "", record "LOCAL" "mark",
    record "LOCAL" "marc" ]

def body : Json :=
  .object [("id", .object primary), ("equivalent_ids", .list (equivalents.map .object))]

def site : Site := .answering [(.expand "2005", body)]

theorem isRecord_record (domain name : String) : IsRecord (record domain name) := by
  have hname : (record domain name).find? "name" = some (.text name) := rfl
  have hdomain : (record domain name).find? "domain" = some (.text domain) := rfl
  refine ⟨fun v hv => ?_, fun v hv => ?_⟩
  · exact .inr ⟨name, Option.some.inj (hv.symm.trans hname)⟩
  · exact .inr ⟨domain, Option.some.inj (hv.symm.trans hdomain)⟩

theorem expands : Expands body primary equivalents where
  id := rfl
  others := rfl
  primary := by
    have hname : primary.find? "name" = none := rfl
    have hdomain : primary.find? "domain" = some (.text "POSIX_USER") := rfl
    have huid : primary.find? "uid" = some (.int 2005) := rfl
    have hgid : primary.find? "gid" = none := rfl
    refine ⟨⟨fun v hv => ?_, fun v hv => ?_⟩, fun v hv => ?_, fun v hv => ?_⟩
    · cases hname.symm.trans hv
    · exact .inr ⟨_, Option.some.inj (hv.symm.trans hdomain)⟩
    · exact ⟨_, Option.some.inj (hv.symm.trans huid)⟩
    · cases hgid.symm.trans hv
  records := by
    simp only [equivalents, List.forall_mem_cons]
    exact ⟨isRecord_record .., isRecord_record .., isRecord_record .., isRecord_record .., nofun⟩

/-- Of the equivalents with names the first one of the best rank is chosen. -/
theorem chosen_mark : Chosen primary equivalents "mark" := by
  refine Chosen.equivalent (r := record "LOCAL" "mark") (by decide) ⟨by decide, ?_⟩
  refine ⟨[record "POSIX_GROUP" "staff", record "ACTIVE_DIRECTORY" ""], [record "LOCAL" "marc"], rfl, ?_, ?_⟩
  · simp only [List.forall_mem_cons]
    exact ⟨by decide, by decide, nofun⟩
  · simp only [List.forall_mem_cons]
    exact ⟨by decide, nofun⟩

end Linked

theorem Client.tells_chosen_name_linked :
    (ofCache []).Unasked (Json.text "2005").display ∧
      Linked.site.receive (.expand (Json.text "2005").display) = .ok Linked.body ∧
      Expands Linked.body Linked.primary Linked.equivalents ∧
      ((ofCache []).names Linked.site [.text "2005"]).2 = .ok [.text "mark"] := by
  have hunasked : (ofCache []).Unasked (Json.text "2005").display := ⟨rfl, rfl, rfl⟩
  have hreply : Linked.site.receive (.expand (Json.text "2005").display) = .ok Linked.body :=
    Site.receive_answering (by cbv)
  obtain ⟨chosen, hchosen, hnames, -⟩ := tells_chosen_name rfl hunasked hreply Linked.expands
  obtain rfl := (hchosen "mark").1 Linked.chosen_mark
  have hshown : shown Linked.primary "mark" = "mark" := by decide +kernel
  exact ⟨hunasked, hreply, Linked.expands, hshown ▸ hnames rfl⟩

end UsageLedger.Cluster
