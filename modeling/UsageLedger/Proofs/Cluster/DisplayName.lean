/-
UsageLedger/Proofs/Cluster/DisplayName.lean

Under which name an expanded identity is reported.  The name is the one of the identity
itself, or else that of an equivalent: the first one, in the order in which they are given,
of the best rank that an equivalent with a name has (`Chosen`).  An identity of a POSIX
domain goes by its number unless the name chosen is a proper one (`shown`).

The equivalents are sorted by rank and searched for a name.  The sort is stable, so what is
found is the first of the least rank among those that have a name, whatever stands before
or between them (`firstLeast_of_find?`).
-/
import UsageLedger.Cluster.Identity

namespace UsageLedger

/-! ### The first of the least -/

section

variable {α : Type} {rank : α → Nat} {p : α → Bool} {l : List α} {a b : α}

/-- Among the items with a property one is of the least rank, and the first of that rank. -/
structure FirstLeast (rank : α → Nat) (p : α → Bool) (l : List α) (a : α) : Prop where
  holds : p a = true
  split : ∃ before after, l = before ++ a :: after ∧
    (∀ b ∈ before, p b = true → rank a < rank b) ∧ ∀ b ∈ after, p b = true → rank a ≤ rank b

theorem FirstLeast.unique (ha : FirstLeast rank p l a) (hb : FirstLeast rank p l b) : a = b := by
  obtain ⟨before, after, rfl, hbefore, hafter⟩ := ha.split
  obtain ⟨before', after', heq, hbefore', hafter'⟩ := hb.split
  -- If one of them came before the other one, it would be both below it and not.
  rcases List.append_eq_append_iff.1 heq with ⟨between, rfl, hrest⟩ | ⟨between, rfl, hrest⟩
  · cases between with
    | nil => exact (List.cons.inj hrest).1
    | cons c between =>
      obtain ⟨rfl, rfl⟩ := List.cons.inj hrest
      have hlt := hbefore' a (by simp) ha.holds
      have hle := hafter b (by simp) hb.holds
      omega
  · cases between with
    | nil => exact (List.cons.inj hrest).1.symm
    | cons c between =>
      obtain ⟨rfl, rfl⟩ := List.cons.inj hrest
      have hlt := hbefore b (by simp) hb.holds
      have hle := hafter' a (by simp) ha.holds
      omega

/-- What is first depends on the items of the list alone. -/
theorem FirstLeast.congr {rank' : α → Nat} {p' : α → Bool} (h : FirstLeast rank p l a)
    (hrank : ∀ b ∈ l, rank b = rank' b) (hp : ∀ b ∈ l, p b = p' b) : FirstLeast rank' p' l a := by
  obtain ⟨holds, before, after, rfl, hbefore, hafter⟩ := h
  simp only [List.forall_mem_append, List.forall_mem_cons] at hrank hp
  refine ⟨hp.2.1 ▸ holds, before, after, rfl, fun b hb hpb => ?_, fun b hb hpb => ?_⟩
  · rw [← hrank.2.1, ← hrank.1 b hb]
    exact hbefore b hb ((hp.1 b hb).trans hpb)
  · rw [← hrank.2.1, ← hrank.2.2 b hb]
    exact hafter b hb ((hp.2.2 b hb).trans hpb)

/-- **What is found in a sorted list** is the first of the least in the list as it was given. -/
theorem firstLeast_of_find?
    (h : (l.mergeSort fun a b => decide (rank a ≤ rank b)).find? p = some a) :
    FirstLeast rank p l a := by
  have trans (a b c : α) (hab : decide (rank a ≤ rank b) = true) (hbc : decide (rank b ≤ rank c) = true) :
      decide (rank a ≤ rank c) = true :=
    decide_eq_true (Nat.le_trans (of_decide_eq_true hab) (of_decide_eq_true hbc))
  have total (a b : α) : (decide (rank a ≤ rank b) || decide (rank b ≤ rank a)) = true := by
    simpa using Nat.le_total (rank a) (rank b)
  induction l with
  | nil => simp at h
  | cons c rest ih =>
    -- The head is put in front of the first item that is not below it.
    obtain ⟨below, above, hsort, hrest, hbelow⟩ := List.mergeSort_cons trans total c rest
    have hsorted := List.pairwise_mergeSort trans total (c :: rest)
    rw [hsort] at h hsorted
    rw [hrest, List.find?_append] at ih
    rw [List.find?_append, List.find?_cons] at h
    cases hfound : below.find? p with
    | some b =>
      rw [hfound, Option.some_or] at h ih
      obtain rfl := Option.some.inj h
      obtain ⟨hb, before, after, rfl, hbefore, hafter⟩ := ih rfl
      refine ⟨hb, c :: before, after, rfl, fun d hd hp => ?_, hafter⟩
      rcases List.mem_cons.1 hd with rfl | hd
      · have hlt := hbelow b (List.mem_of_find?_eq_some hfound)
        simpa using hlt
      · exact hbefore d hd hp
    | none =>
      rw [hfound, Option.none_or] at h ih
      by_cases hc : p c = true
      · rw [hc] at h
        obtain rfl := Option.some.inj h
        refine ⟨hc, [], rest, rfl, nofun, fun d hd hp => ?_⟩
        have hmem : d ∈ below ++ above := by
          rw [← hrest]
          exact List.mem_mergeSort.2 hd
        rcases List.mem_append.1 hmem with hd | hd
        · exact absurd hp (List.find?_eq_none.1 hfound d hd)
        · have habove := (List.pairwise_append.1 hsorted).2.1
          exact of_decide_eq_true (List.rel_of_pairwise_cons habove hd)
      · rw [Bool.not_eq_true] at hc
        rw [hc] at h
        obtain ⟨hb, before, after, rfl, hbefore, hafter⟩ := ih h
        refine ⟨hb, c :: before, after, rfl, fun d hd hp => ?_, hafter⟩
        rcases List.mem_cons.1 hd with rfl | hd
        · rw [hc] at hp
          cases hp
        · exact hbefore d hd hp

end

namespace Cluster

variable {primary members : Catalog String Json} {equivalents : List (Catalog String Json)}
  {body : Json} {id name n n' : String}

/-! ### Records -/

/-- The text of a member; it is empty if there is none. -/
def textUnder (name : String) (record : Catalog String Json) : String :=
  ((record.find? name).bind Json.text?).getD ""

/-- The whole number of a member, if there is one. -/
def numberUnder? (name : String) (record : Catalog String Json) : Option Int :=
  (record.find? name).bind Json.whole?

/-- A member that is a text, or null, or missing. -/
def MayHaveText (name : String) (record : Catalog String Json) : Prop :=
  ∀ v, record.find? name = some v → v = .null ∨ ∃ s, v = .text s

/-- A record whose name and domain are texts, as far as it has them. -/
structure IsRecord (record : Catalog String Json) : Prop where
  name : MayHaveText "name" record
  domain : MayHaveText "domain" record

/-- A record whose user and group numbers are whole numbers too, as far as it has them. -/
structure IsNumbered (record : Catalog String Json) : Prop extends IsRecord record where
  uid : ∀ v, record.find? "uid" = some v → ∃ k, v = .int k
  gid : ∀ v, record.find? "gid" = some v → ∃ k, v = .int k

/-- What an expansion is answered with: a record of the identity, and records of its equivalents. -/
structure Expands (body : Json) (primary : Catalog String Json)
    (equivalents : List (Catalog String Json)) : Prop where
  id : body.memberOr "id" (.object []) = .ok (.object primary)
  others : body.memberOr "equivalent_ids" (.list []) = .ok (.list (equivalents.map .object))
  primary : IsNumbered primary
  records : ∀ r ∈ equivalents, IsRecord r

/-! ### The rules -/

/-- The rank of a domain, best first. -/
def domainRank (domain : String) : Nat :=
  if domain = "ACTIVE_DIRECTORY" then 0
  else if domain = "LOCAL" then 1
  else if domain = "POSIX_USER" ∨ domain = "POSIX_GROUP" then 2
  else 3

/-- The name chosen for an identity: its own; if it has none, that of the first of the best ranked
equivalents with a name; or none if they have no names either. -/
inductive Chosen (primary : Catalog String Json) (equivalents : List (Catalog String Json)) :
    String → Prop
  | own : textUnder "name" primary ≠ "" → Chosen primary equivalents (textUnder "name" primary)
  | equivalent {r : Catalog String Json} : textUnder "name" primary = "" →
      FirstLeast (fun r => domainRank (textUnder "domain" r)) (fun r => textUnder "name" r != "")
        equivalents r →
      Chosen primary equivalents (textUnder "name" r)
  | none : textUnder "name" primary = "" → (∀ r ∈ equivalents, textUnder "name" r = "") →
      Chosen primary equivalents ""

/-- The number by which an identity of a POSIX domain goes. -/
def numberOf? (primary : Catalog String Json) : Option String :=
  if textUnder "domain" primary = "POSIX_USER" then
    (numberUnder? "uid" primary).map fun k => "UID " ++ toString k
  else if textUnder "domain" primary = "POSIX_GROUP" then
    (numberUnder? "gid" primary).map fun k => "GID " ++ toString k
  else none

/-- What is shown for an identity with a chosen name: its number, if it has one and the name is empty
or stands for an unknown one; else the name. -/
def shown (primary : Catalog String Json) (name : String) : String :=
  match numberOf? primary with
  | some number => if name = "" ∨ name.startsWith "Unknown" = true then number else name
  | none => if name = "" then "Unknown" else name

theorem Chosen.unique (h : Chosen primary equivalents n) (h' : Chosen primary equivalents n') :
    n = n' := by
  cases h with
  | own hown =>
    cases h' with
    | own => rfl
    | equivalent hempty => exact absurd hempty hown
    | none hempty => exact absurd hempty hown
  | equivalent hempty hfirst =>
    cases h' with
    | own hown => exact absurd hempty hown
    | equivalent _ hfirst' => rw [hfirst.unique hfirst']
    | none _ hnone =>
      obtain ⟨before, after, rfl, -⟩ := hfirst.split
      exact hnone _ (by simp)
  | none hempty hnone =>
    cases h' with
    | own hown => exact absurd hempty hown
    | equivalent _ hfirst =>
      obtain ⟨before, after, rfl, -⟩ := hfirst.split
      exact (hnone _ (by simp)).symm
    | none => rfl

/-! ### What is computed -/

theorem text_beq (s t : String) : (Json.text s == Json.text t) = (s == t) := by
  show Json.beq (.text s) (.text t) = _
  rw [Json.beq]

theorem isPresent_text (s : String) : (Json.text s).isPresent = (s != "") := by
  show (!s.isEmpty) = _
  rw [bne, Bool.not_inj_iff, Bool.eq_iff_iff, String.isEmpty_iff, beq_iff_eq]

theorem rank_text (domain : String) : rank (.text domain) = domainRank domain := by
  unfold rank domainRank
  simp only [text_beq, beq_iff_eq, Bool.or_eq_true]

theorem rank_domain (h : MayHaveText "domain" members) :
    rank ((members.find? "domain").getD (.text "")) = domainRank (textUnder "domain" members) := by
  unfold textUnder
  cases hv : members.find? "domain" with
  | none => exact rank_text ""
  | some v =>
    rcases h v hv with rfl | ⟨s, rfl⟩
    · rfl
    · exact rank_text s

theorem isPresent_name (h : IsRecord members) :
    ((members.find? "name").getD .null).isPresent = (textUnder "name" members != "") := by
  unfold textUnder
  cases hv : members.find? "name" with
  | none => rfl
  | some v =>
    rcases h.name v hv with rfl | ⟨s, rfl⟩
    · rfl
    · exact isPresent_text s

theorem mapM_members (equivalents : List (Catalog String Json)) :
    (equivalents.map Json.object).mapM Json.members = .ok equivalents := by
  induction equivalents with
  | nil => rfl
  | cons r rest ih =>
    rw [List.map_cons, List.mapM_cons, ih]
    rfl

/-- The best ranked of the equivalents with a name, if there is one, and an identity with its name. -/
theorem withEquivalent_cases (h : ∀ r ∈ equivalents, IsRecord r) (members : Catalog String Json) :
    ∃ records, ranked (.list (equivalents.map .object)) = .ok records ∧
      ((∀ r ∈ equivalents, textUnder "name" r = "") ∧ withEquivalent members records = members ∨
        ∃ r domain, FirstLeast (fun r => domainRank (textUnder "domain" r))
            (fun r => textUnder "name" r != "") equivalents r ∧
          withEquivalent members records =
            (members.put "name" (.text (textUnder "name" r))).put "display_domain" domain) := by
  have hitems : ranked (.list (equivalents.map .object)) = .ok (equivalents.mergeSort fun a b =>
      decide (rank ((a.find? "domain").getD (.text "")) ≤ rank ((b.find? "domain").getD (.text "")))) := by
    unfold ranked
    rw [Json.items]
    show ((equivalents.map Json.object).mapM Json.members >>= _) = _
    rw [mapM_members]
    rfl
  refine ⟨_, hitems, ?_⟩
  unfold withEquivalent
  dsimp only
  split
  · rename_i r hfound
    have hfirst := (firstLeast_of_find? hfound).congr
      (fun b hb => rank_domain (h b hb).domain) fun b hb => isPresent_name (h b hb)
    have hname : (r.find? "name").getD .null = .text (textUnder "name" r) := by
      obtain ⟨before, after, hsplit, -⟩ := hfirst.split
      have hrecord := h r (by simp [hsplit])
      have hholds := hfirst.holds
      unfold textUnder at hholds ⊢
      cases hv : r.find? "name" with
      | none => simp [hv] at hholds
      | some v =>
        rcases hrecord.name v hv with rfl | ⟨s, rfl⟩
        · simp [hv, Json.text?] at hholds
        · rfl
    exact .inr ⟨r, _, hfirst, by rw [hname]⟩
  · rename_i hnone
    refine .inl ⟨fun r hr => ?_, rfl⟩
    have habsent := List.find?_eq_none.1 hnone r (List.mem_mergeSort.2 hr)
    rw [isPresent_name (h r hr)] at habsent
    simpa using habsent

theorem put_ne_nil (key : String) (value : Json) (members : Catalog String Json) :
    members.put key value ≠ [] := by
  cases members with
  | nil => exact List.cons_ne_nil _ _
  | cons e rest =>
    unfold Catalog.put
    split
    · exact List.cons_ne_nil _ _
    · exact List.cons_ne_nil _ _

/-- The members of an identity made of a record: the name may be another one, but domain and numbers
are those of the record. -/
structure MadeOf (primary members : Catalog String Json) : Prop where
  ne_nil : members ≠ []
  name : MayHaveText "name" members
  same : ∀ key ∈ ["domain", "uid", "gid"], members.find? key = primary.find? key

/-- A record marked as resolved for an id. -/
def marked (id : String) (primary : Catalog String Json) : Catalog String Json :=
  (primary.put "auth_id" (.text id)).put "resolved" (.bool true)

theorem madeOf_marked (h : IsRecord primary) (id : String) :
    MadeOf primary (marked id primary) ∧
      textUnder "name" (marked id primary) = textUnder "name" primary := by
  have hput (key : String) (hid : "auth_id" ≠ key) (hkey : "resolved" ≠ key) :
      (marked id primary).find? key = primary.find? key := by
    rw [marked, Catalog.find?_put, if_neg hkey, Catalog.find?_put, if_neg hid]
  have hname := hput "name" (by decide) (by decide)
  refine ⟨⟨put_ne_nil _ _ _, fun v hv => h.name v (hname ▸ hv), fun key hkey => ?_⟩, ?_⟩
  · exact hput key (by rintro rfl; simp at hkey) (by rintro rfl; simp at hkey)
  · rw [textUnder, hname, textUnder]

/-- A name put in place of that of an identity. -/
theorem MadeOf.put (h : MadeOf primary members) (name : String) (domain : Json) :
    MadeOf primary ((members.put "name" (.text name)).put "display_domain" domain) ∧
      textUnder "name" ((members.put "name" (.text name)).put "display_domain" domain) = name := by
  have hname : ((members.put "name" (.text name)).put "display_domain" domain).find? "name" =
      some (.text name) := by
    rw [Catalog.find?_put, if_neg (by decide), Catalog.find?_put, if_pos rfl]
  refine ⟨⟨put_ne_nil _ _ _, fun v hv => ?_, fun key hkey => ?_⟩, ?_⟩
  · rw [hname] at hv
    exact .inr ⟨name, (Option.some.inj hv).symm⟩
  · rw [← h.same key hkey, Catalog.find?_put, if_neg (by rintro rfl; simp at hkey), Catalog.find?_put,
      if_neg (by rintro rfl; simp at hkey)]
  · rw [textUnder, hname]
    rfl

theorem numbered?_eq (hprimary : IsNumbered primary) (hmade : MadeOf primary members) :
    numbered? members = numberOf? primary := by
  have hdomain (posix : String) (hposix : posix ≠ "UNKNOWN" ∧ posix ≠ "") :
      ((members.find? "domain").getD (.text "UNKNOWN") == .text posix) =
        decide (textUnder "domain" primary = posix) := by
    rw [hmade.same "domain" (by simp)]
    unfold textUnder
    cases hv : primary.find? "domain" with
    | none => simp [text_beq, hposix.1.symm, hposix.2.symm]
    | some v =>
      rcases hprimary.domain v hv with rfl | ⟨s, rfl⟩
      · have hnull : (Json.null == .text posix) = false := rfl
        simpa [Json.text?, hposix.2.symm] using hnull
      · show (Json.text s == .text posix) = _
        rw [text_beq, Bool.eq_iff_iff, beq_iff_eq, decide_eq_true_iff]
        rfl
  have hnumber (key label : String) (h : ∀ v, primary.find? key = some v → ∃ k, v = .int k) :
      ((primary.find? key).map fun v => label ++ v.display) =
        (numberUnder? key primary).map fun k => label ++ toString k := by
    unfold numberUnder?
    cases hv : primary.find? key with
    | none => rfl
    | some v =>
      obtain ⟨k, rfl⟩ := h v hv
      simp [Json.whole?, Json.display, Json.quoted]
  unfold numbered? numberOf?
  dsimp only
  rw [hdomain "POSIX_USER" (by decide), hdomain "POSIX_GROUP" (by decide), hmade.same "uid" (by simp),
    hmade.same "gid" (by simp), hnumber "uid" "UID " hprimary.uid, hnumber "gid" "GID " hprimary.gid]
  simp only [decide_eq_true_eq]

/-- An identity is shown under its name, or by the number of the record. -/
theorem displayName_eq (hprimary : IsNumbered primary) (hmade : MadeOf primary members) :
    displayName (.object members) = .ok (.text (shown primary (textUnder "name" members))) := by
  have hpresent : (Json.object members).isPresent = true := by
    simpa [Json.isPresent] using hmade.ne_nil
  have htext (s : String) : (Json.text s).orElse (.text "") = .text s := by
    unfold Json.orElse
    rw [isPresent_text]
    by_cases hs : s = "" <;> simp [hs]
  have hchosen : ((members.find? "name").getD .null).orElse (.text "") =
      .text (textUnder "name" members) := by
    unfold textUnder
    cases hv : members.find? "name" with
    | none => rfl
    | some v =>
      rcases hmade.name v hv with rfl | ⟨s, rfl⟩
      · rfl
      · exact htext s
  generalize textUnder "name" members = name at hchosen ⊢
  have hplaceholder : isPlaceholder (.text name) =
      .ok (decide (name = "" ∨ name.startsWith "Unknown" = true)) := by
    unfold isPlaceholder
    rw [isPresent_text]
    by_cases hempty : name = ""
    · simp [hempty]
    · rw [if_pos (by simpa using hempty)]
      show Except.ok (name.startsWith "Unknown") = _
      simp only [hempty, false_or, Bool.decide_eq_true]
  have hdisplay : displayName (.object members) =
      match numbered? members with
      | some number => (isPlaceholder (.text name)).map fun b => if b then .text number else .text name
      | none => .ok ((Json.text name).orElse (.text nameless)) := by
    unfold displayName
    simp only [hpresent, Json.members, hchosen, bind, Except.bind, pure, Except.pure]
    cases numbered? members with
    | none => rfl
    | some number =>
      rw [hplaceholder]
      cases decide (name = "" ∨ name.startsWith "Unknown" = true) <;> rfl
  rw [hdisplay, numbered?_eq hprimary hmade, shown]
  cases numberOf? primary with
  | some number =>
    rw [hplaceholder]
    by_cases hstands : name = "" ∨ name.startsWith "Unknown" = true
    · simp only [hstands, decide_true, if_true]
      rfl
    · simp only [hstands, decide_false, if_false]
      rfl
  | none =>
    show Except.ok ((Json.text name).orElse (.text nameless)) = _
    unfold Json.orElse
    rw [isPresent_text]
    by_cases hempty : name = "" <;> simp [hempty, nameless]

/-- **What an expansion brings** is shown under the name chosen among the identity and its
equivalents. -/
theorem displayName_ofExpansion (h : Expands body primary equivalents) (id : String) :
    ∃ identity name, ofExpansion id body = .ok identity ∧ Chosen primary equivalents name ∧
      displayName identity = .ok (.text (shown primary name)) := by
  obtain ⟨hmarked, hname⟩ := madeOf_marked h.primary.toIsRecord id
  obtain ⟨records, hrecords, hcases⟩ := withEquivalent_cases h.records (marked id primary)
  have hof : ofExpansion id body = .ok (.object (if textUnder "name" primary ≠ "" then marked id primary
      else withEquivalent (marked id primary) records)) := by
    unfold ofExpansion
    simp only [h.id, h.others, hrecords, bind, Except.bind, pure, Except.pure,
      isPresent_name h.primary.toIsRecord, bne_iff_ne]
    split <;> rfl
  by_cases hown : textUnder "name" primary = ""
  · rw [if_neg (not_not_intro hown)] at hof
    rcases hcases with ⟨hnone, hsame⟩ | ⟨r, domain, hfirst, hput⟩
    · rw [hsame] at hof
      refine ⟨_, _, hof, .none hown hnone, ?_⟩
      rw [← hown, ← hname]
      exact displayName_eq h.primary hmarked
    · rw [hput] at hof
      obtain ⟨hmade, hchosen⟩ := hmarked.put (textUnder "name" r) domain
      refine ⟨_, _, hof, .equivalent hown hfirst, ?_⟩
      have hdisplay := displayName_eq h.primary hmade
      rwa [hchosen] at hdisplay
  · rw [if_pos hown] at hof
    refine ⟨_, _, hof, .own hown, ?_⟩
    rw [← hname]
    exact displayName_eq h.primary hmarked

end Cluster

end UsageLedger
