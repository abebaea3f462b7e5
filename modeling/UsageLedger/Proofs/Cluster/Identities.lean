/-
UsageLedger/Proofs/Cluster/Identities.lean

Well-formed identities have names.  A record of an identity is well-formed when its
name, if it has one, is a text; the replies of a cluster are well-formed when all
records in them are.  The identity that a lookup makes of such replies, by an
expansion or by an inquiry, is well-formed again (`ofExpansion_wellFormed`,
`ofInquiry_wellFormed`), so the lookup brings an identity with a name
(`Site.Identifies.exists_name`), also where the cluster refuses one request or both.
-/
import UsageLedger.Proofs.Cluster.Lookup

namespace UsageLedger.Cluster

variable {members : Catalog String Json} {v body : Json} {id : String} {site : Site}

/-! ### Records -/

/-- A record whose name, if it has one, is a text. -/
def HasTextName (members : Catalog String Json) : Prop :=
  ∀ name, members.find? "name" = some name → name = .null ∨ ∃ s, name = .text s

/-- A value that is such a record. -/
def IsIdentity (v : Json) : Prop := ∃ members, v = .object members ∧ HasTextName members

/-- An expansion: a record, and records of its equivalents, as far as they are given. -/
def IsExpansion (v : Json) : Prop :=
  ∃ members : Catalog String Json, v = .object members ∧
    (∀ primary, members.find? "id" = some primary → IsIdentity primary) ∧
    ∀ others, members.find? "equivalent_ids" = some others →
      ∃ items, others = .list items ∧ ∀ item ∈ items, IsIdentity item

theorem hasTextName_nil : HasTextName [] := by
  intro name h
  cases h

/-- The name that a record gives. -/
theorem HasTextName.getD (h : HasTextName members) (other : String) :
    ∃ s, (((members.find? "name").getD .null).orElse (.text other)) = .text s := by
  cases hn : members.find? "name" with
  | none => exact ⟨other, rfl⟩
  | some name =>
    rcases h name hn with rfl | ⟨s, rfl⟩
    · exact ⟨other, rfl⟩
    · by_cases hs : s.isEmpty = true
      · exact ⟨other, by simp [Json.orElse, Json.isPresent, hs]⟩
      · exact ⟨s, by simp [Json.orElse, Json.isPresent, hs]⟩

/-- Another member does not touch the name. -/
theorem HasTextName.put (h : HasTextName members) {key : String} (hk : key ≠ "name") (value : Json) :
    HasTextName (Catalog.put key value members) := by
  intro name hn
  rw [Catalog.find?_put, if_neg hk] at hn
  exact h name hn

/-- A text as the name. -/
theorem hasTextName_put_text (members : Catalog String Json) (s : String) :
    HasTextName (Catalog.put "name" (.text s) members) := by
  intro name hn
  rw [Catalog.find?_put, if_pos rfl] at hn
  cases hn
  exact .inr ⟨s, rfl⟩

/-- **A well-formed identity has a name.** -/
theorem IsIdentity.exists_displayName (h : IsIdentity v) : ∃ name, displayName v = .ok name := by
  obtain ⟨members, rfl, hname⟩ := h
  obtain ⟨s, hs⟩ := hname.getD ""
  unfold displayName
  by_cases hp : (Json.object members).isPresent = true
  · cases hn : numbered? members with
    | none =>
      refine ⟨(Json.text s).orElse (.text nameless), ?_⟩
      simp [hp, Json.members, hn, hs, bind, Except.bind, pure, Except.pure]
    | some number =>
      -- A text can always be compared with the placeholder.
      obtain ⟨b, hb⟩ : ∃ b, isPlaceholder (.text s) = .ok b := by
        unfold isPlaceholder
        split
        · exact ⟨_, rfl⟩
        · exact ⟨_, rfl⟩
      refine ⟨if b then .text number else .text s, ?_⟩
      simp only [hp, Json.members, hn, hs, bind, Except.bind, pure, Except.pure, hb]
      cases b <;> rfl
  · refine ⟨.text nameless, ?_⟩
    simp [hp, pure, Except.pure]

/-! ### Expansions -/

/-- Records in a list of well-formed ones. -/
theorem exists_mapM_members {items : List Json} (h : ∀ item ∈ items, IsIdentity item) :
    ∃ records, items.mapM Json.members = .ok records ∧ ∀ r ∈ records, HasTextName r := by
  induction items with
  | nil => exact ⟨[], rfl, fun r hr => absurd hr List.not_mem_nil⟩
  | cons item rest ih =>
    obtain ⟨members, rfl, hname⟩ := h item List.mem_cons_self
    obtain ⟨records, hrecords, hall⟩ := ih fun item hi => h item (List.mem_cons_of_mem _ hi)
    refine ⟨members :: records, ?_, List.forall_mem_cons.2 ⟨hname, hall⟩⟩
    rw [List.mapM_cons, hrecords]
    rfl

/-- Ranking well-formed records. -/
theorem exists_ranked {items : List Json} (h : ∀ item ∈ items, IsIdentity item) :
    ∃ records, ranked (.list items) = .ok records ∧ ∀ r ∈ records, HasTextName r := by
  obtain ⟨records, hrecords, hall⟩ := exists_mapM_members h
  obtain ⟨sorted, hsorted, hperm⟩ :
      ∃ sorted, ranked (.list items) = .ok sorted ∧ sorted.Perm records := by
    simp only [ranked, Json.items, bind, Except.bind, hrecords, pure, Except.pure]
    exact ⟨_, rfl, List.mergeSort_perm _ _⟩
  exact ⟨sorted, hsorted, fun r hr => hall r (hperm.mem_iff.1 hr)⟩

/-- The name of the best equivalent that has one is a text. -/
theorem HasTextName.withEquivalent (h : HasTextName members) {records : List (Catalog String Json)}
    (hr : ∀ r ∈ records, HasTextName r) : HasTextName (withEquivalent members records) := by
  unfold Cluster.withEquivalent
  dsimp only
  split
  · rename_i r hfind
    have hpresent := List.find?_some hfind
    refine HasTextName.put ?_ (by decide) _
    cases hn : r.find? "name" with
    | none => simp [hn, Json.isPresent] at hpresent
    | some name =>
      rcases hr r (List.mem_of_find?_eq_some hfind) name hn with rfl | ⟨s, rfl⟩
      · simp [hn, Json.isPresent] at hpresent
      · exact hasTextName_put_text members s
  · exact h

/-- A well-formed expansion brings a well-formed identity. -/
theorem ofExpansion_wellFormed (h : IsExpansion body) :
    ∃ identity, ofExpansion id body = .ok identity ∧ IsIdentity identity := by
  obtain ⟨members, rfl, hid, hothers⟩ := h
  obtain ⟨primary, hprimary, hname⟩ : ∃ primary, (members.find? "id").getD (.object []) = .object primary ∧
      HasTextName primary := by
    cases hp : members.find? "id" with
    | none => exact ⟨[], rfl, hasTextName_nil⟩
    | some primary => exact hid primary hp
  obtain ⟨records, hrecords, hall⟩ :
      ∃ records, ranked ((members.find? "equivalent_ids").getD (.list [])) = .ok records ∧
        ∀ r ∈ records, HasTextName r := by
    obtain ⟨items, hitems, hids⟩ : ∃ items, (members.find? "equivalent_ids").getD (.list []) = .list items ∧
        ∀ item ∈ items, IsIdentity item := by
      cases he : members.find? "equivalent_ids" with
      | none => exact ⟨[], rfl, fun item hi => absurd hi List.not_mem_nil⟩
      | some others => exact hothers others he
    rw [hitems]
    exact exists_ranked hids
  have hidentity : HasTextName
      (Catalog.put "resolved" (.bool true) (Catalog.put "auth_id" (.text id) primary)) :=
    (hname.put (by decide) _).put (by decide) _
  simp only [ofExpansion, Json.memberOr, Json.members, Except.map, hprimary, bind, Except.bind]
  split
  · exact ⟨_, rfl, _, rfl, hidentity⟩
  · rw [hrecords]
    exact ⟨_, rfl, _, rfl, hidentity.withEquivalent hall⟩

/-! ### Inquiries and lookups -/

/-- An inquiry that is answered with a well-formed identity, or refused, brings a well-formed one. -/
theorem ofInquiry_wellFormed {reply : Except Fault Json}
    (h : (∃ body, reply = .ok body ∧ IsIdentity body) ∨ ∃ why, reply = .error (.network why)) :
    ∃ identity, ofInquiry id reply = .ok identity ∧ IsIdentity identity := by
  rcases h with ⟨body, rfl, members, rfl, hname⟩ | ⟨why, rfl⟩
  · exact ⟨_, rfl, _, rfl, hname.put (by decide) _⟩
  · have stand (members : Catalog String Json)
        (hm : members.find? "name" = some (.text (unresolvedName id))) : IsIdentity (.object members) := by
      refine ⟨members, rfl, fun name hn => ?_⟩
      rw [hm] at hn
      cases hn
      exact .inr ⟨_, rfl⟩
    unfold ofInquiry
    split
    · rename_i heq
      cases heq
    · exact ⟨_, rfl, stand _ rfl⟩
    · exact ⟨_, rfl, stand _ rfl⟩
    · rename_i hnot heq
      cases heq
      exact absurd rfl (hnot why)

/-- A site answers the requests for an identity with well-formed replies, or it refuses them. -/
structure Site.Identifies (site : Site) (id : String) : Prop where
  expand : (∃ body, site.receive (.expand id) = .ok body ∧ IsExpansion body) ∨ site.Refuses id
  find : (∃ body, site.receive (.find id) = .ok body ∧ IsIdentity body) ∨
    ∃ why, site.receive (.find id) = .error (.network why)

/-- **A lookup brings an identity with a name.** -/
theorem Site.Identifies.exists_name (h : site.Identifies id) :
    ∃ identity name, site.resolve id = .ok identity ∧ displayName identity = .ok name := by
  obtain ⟨identity, hidentity, hwell⟩ : ∃ identity, site.resolve id = .ok identity ∧ IsIdentity identity := by
    unfold Site.resolve
    rcases h.expand with ⟨body, hbody, hexpansion⟩ | ⟨why, hwhy⟩
    · rw [hbody]
      exact ofExpansion_wellFormed hexpansion
    · rw [hwhy]
      exact ofInquiry_wellFormed h.find
  obtain ⟨name, hname⟩ := hwell.exists_displayName
  exact ⟨identity, name, hidentity, hname⟩

end UsageLedger.Cluster
