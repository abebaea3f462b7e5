/-
UsageLedger/Proofs/Cluster/Sound.lean

What holds of a walk over a served tree at any time, in whatever order its turns are
taken.  `Walk.Sound` says of a walk: no fault has occurred, what has been visited and
what the tasks still owe make up the tree, the visits are those of the entries visited
so far under the names that go with their ids, and no entry has been visited before
the directory that lists it.

The walk needs three things: the cluster serves the tree, every file that is counted
has finite counts, and every id has a name.  Then a possible turn keeps `Walk.Sound`
and leaves fewer turns to be taken (`Sound.step`), so a walk cannot go on for ever
(`Sound.after`).
-/
import UsageLedger.Proofs.Cluster.Outstanding

namespace UsageLedger.Cluster

/-! ### Schedules -/

/-- The walk after some turns, if each of them is possible when it is taken. -/
def Walk.after? (site : Site) (verbose : Bool) (w : Walk) : List Turn → Option Walk
  | [] => some w
  | turn :: turns => (w.step? site verbose turn).bind fun w => w.after? site verbose turns

/-- No turn is possible. -/
def Walk.Over (site : Site) (verbose : Bool) (w : Walk) : Prop :=
  ∀ turn, w.step? site verbose turn = none

/-! ### Visits of entries -/

/-- The visit of an entry under the names that go with the ids of its owner and its group. -/
def Client.Visits (site : Site) (c : Client) (l : Listed) (v : Visit) : Prop :=
  ∃ owner group, c.nameOf site (l.entry.member "owner") = .ok owner ∧
    c.nameOf site (l.entry.member "group") = .ok group ∧ l.entry.visit owner group = .ok v

/-- Every entry comes after the directory that lists it. -/
def Guided (order : List Listed) : Prop :=
  ∀ before l later, order = before ++ l :: later → ∀ directory, l.directory? = some directory →
    Met before directory

theorem guided_nil : Guided [] := by
  intro before l later h
  simp at h

theorem Guided.concat {order : List Listed} {l : Listed} (h : Guided order)
    (hl : ∀ directory, l.directory? = some directory → Met order directory) :
    Guided (order ++ [l]) := by
  intro before l' later he directory hd
  rcases List.eq_nil_or_concat later with rfl | ⟨later, l'', rfl⟩
  · -- The entry is the last one.
    obtain ⟨rfl, hlast⟩ := List.append_inj' he rfl
    obtain rfl : l = l' := by simpa using hlast
    exact hl directory hd
  · have he' : order ++ [l] = (before ++ l' :: later) ++ [l''] := by simpa using he
    exact h before l' later (List.append_inj_left' he' rfl) directory hd

variable {site : Site} {t : Tree} {path : String} {c₀ : Client} {w w' : Walk} {verbose : Bool}
  {requests : List Request} {done due : List Listed} {n i : ℕ}

/-! ### The invariant -/

/-- How it stands with a walk over a tree, begun by a client, after some requests: these entries are done,
these are due, and that in so many turns besides those of the lookups under way. -/
structure Walk.Sound (site : Site) (t : Tree) (path : String) (c₀ : Client) (w : Walk)
    (requests : List Request) (done due : List Listed) (n : ℕ) : Prop where
  fault : w.fault = none
  client : w.client.Reached site (· ∈ t.ids) c₀ requests
  tasks : Outstanding (Owes site t path c₀ w.client done) w.tasks due n
  all : (done ++ due).Perm t.visited
  visits : List.Forall₂ (c₀.Visits site) (done.filter (·.entry.kind.isCounted)) w.traversal.visits
  known : ∀ l ∈ done, ∀ id ∈ l.entry.ids, ∃ identity, w.client.cache.find? id = some identity
  guided : Guided done

namespace Walk

/-- A walk of which that holds, with fewer turns to be taken than some number. -/
def SoundBelow (site : Site) (t : Tree) (path : String) (c₀ : Client) (w : Walk) (limit : ℕ) : Prop :=
  ∃ requests done due n, w.Sound site t path c₀ requests done due n ∧ n + w.client.left < limit

/-- Remarks do not show among the visits. -/
theorem visits_remarks {remarks past : List Event} (h : remarks.filterMap Event.visit? = []) (c : Client)
    (tasks : List Task) (fault : Option Fault) :
    (Walk.mk c (remarks ++ past) tasks fault).traversal.visits =
      (past.reverse).filterMap Event.visit? := by
  show ((remarks ++ past).reverse).filterMap Event.visit? = _
  rw [List.reverse_append, List.filterMap_append, List.filterMap_reverse (l := remarks), h,
    List.reverse_nil, List.append_nil]

/-- A visit shows last. -/
theorem visits_record (w : Walk) (v : Visit) :
    ((Event.visit v :: w.past).reverse).filterMap Event.visit? = w.traversal.visits ++ [v] := by
  rw [List.reverse_cons, List.filterMap_append]
  rfl

namespace Sound

/-- A walk that begins: the whole tree is due. -/
theorem start (site : Site) (t : Tree) (path : String) (c : Client) :
    (Walk.start c path).Sound site t path c [] [] t.visited t.work where
  fault := rfl
  client := Client.reached_newSession site _ c
  tasks := .singleton .root
  all := .refl _
  visits := .nil
  known := fun _ hl => absurd hl List.not_mem_nil
  guided := guided_nil

/-- Whatever is due belongs to the tree. -/
theorem mem_visited (h : w.Sound site t path c₀ requests done due n) {l : Listed} (hl : l ∈ due) :
    l ∈ t.visited :=
  h.all.mem_iff.1 (List.mem_append_right _ hl)

/-- A request for attributes or for a page, after which other tasks owe what one task owed. -/
theorem passOn (h : w.Sound site t path c₀ requests done due n)
    {due₁ due₂ : List Listed} {n₁ n₂ : ℕ}
    (hothers : Outstanding (Owes site t path c₀ w.client done) (w.tasks.eraseIdx i) due₂ n₂)
    (hdue : due.Perm (due₁ ++ due₂)) {r : Request} (hr : ∀ id, r.concerns id = false)
    {remarks : List Event} (hsilent : remarks.filterMap Event.visit? = []) {tasks : List Task}
    (htasks : Outstanding (Owes site t path c₀ (w.client.send site r).1 done) tasks due₁ n₁) :
    Sound site t path c₀
      { w with
        client := (w.client.send site r).1, past := remarks ++ w.past
        tasks := w.tasks.eraseIdx i ++ tasks }
      (r :: requests) done due (n₁ + n₂) where
  fault := h.fault
  client := h.client.send hr
  tasks := by
    have hgrown := hothers.imp fun task due n ho =>
      ho.mono (Client.grows_send site w.client r) fun _ hl => hl
    rw [Nat.add_comm]
    exact (hgrown.append htasks).due_perm (hdue.trans List.perm_append_comm)
  all := h.all
  visits := by
    rw [visits_remarks hsilent]
    exact h.visits
  known := h.known
  guided := h.guided

/-- The visit of an entry whose names are known, after which other tasks owe what is below it and ahead. -/
theorem arrive (h : w.Sound site t path c₀ requests done due n) {e : Entry} {cursor? : Option Cursor}
    {inside : Contents} {due₁ due₂ : List Listed} {n₁ n₂ : ℕ}
    (hothers : Outstanding (Owes site t path c₀ w.client done) (w.tasks.eraseIdx i) due₂ n₂)
    (hdue : due.Perm (⟨cursor?.map Cursor.directory, e⟩ :: (inside.under e ++ due₁) ++ due₂))
    (hd : e.kind.isDirectory = true → Pages site e.place none inside ∧ inside.ServedBy site)
    (ha : Ahead site done cursor? due₁ n₁) {v : Visit}
    (hv : c₀.Visits site ⟨cursor?.map Cursor.directory, e⟩ v)
    (hknown : ∀ id ∈ e.ids, ∃ identity, w.client.cache.find? id = some identity) (verbose : Bool) :
    ((w.drop i).arrive verbose v cursor?).Sound site t path c₀ requests
      (done ++ [⟨cursor?.map Cursor.directory, e⟩]) (inside.under e ++ due₁ ++ due₂)
      (inside.workUnder e + n₁ + n₂) ∧
      ((w.drop i).arrive verbose v cursor?).client = w.client := by
  let l : Listed := ⟨cursor?.map Cursor.directory, e⟩
  have hsub : ∀ l' ∈ done, l' ∈ done ++ [l] := fun _ hl' => List.mem_append_left _ hl'
  -- From now on the entry counts as visited, and as met if it is a directory.
  have hbranch (hdir : e.kind.isDirectory = true) : Branch site (done ++ [l]) (e.place, inside) :=
    ⟨(hd hdir).1, (hd hdir).2, l, List.mem_append_right _ (List.mem_singleton_self l), hdir, rfl⟩
  obtain ⟨hpath, hkind⟩ : v.path = e.place ∧ v.node.kind = e.kind := by
    obtain ⟨_, _, -, -, hvisit⟩ := hv
    obtain ⟨_, _, _, -, -, rfl⟩ := Entry.visit_eq_ok hvisit
    exact ⟨rfl, rfl⟩
  obtain ⟨remarks, tasks, hsilent, harrive, hout⟩ :=
    (ha.mono hsub).arrive hpath hkind hbranch t path c₀ w.client verbose (w.drop i)
  rw [harrive]
  refine ⟨⟨h.fault, h.client, ?_, ?_, ?_, ?_, ?_⟩, rfl⟩
  · have hgrown := hothers.imp fun task due n ho => ho.mono (Client.Grows.refl w.client) hsub
    rw [Nat.add_comm]
    exact (hgrown.append hout).due_perm List.perm_append_comm
  · rw [List.append_assoc, List.append_assoc]
    simpa using (hdue.append_left done).symm.trans h.all
  · rw [visits_remarks hsilent, List.filter_append]
    by_cases hcounted : e.kind.isCounted = true
    · have hone : [l].filter (·.entry.kind.isCounted) = [l] := by simp [l, hcounted]
      rw [if_pos hcounted, hone]
      show List.Forall₂ _ _ (((Event.visit v :: w.past).reverse).filterMap Event.visit?)
      rw [visits_record]
      exact List.rel_append h.visits (.cons hv .nil)
    · have hnone : [l].filter (·.entry.kind.isCounted) = [] := by simp [l, hcounted]
      rw [if_neg hcounted, hnone, List.append_nil]
      exact h.visits
  · intro l' hl' id hid
    rcases List.mem_append.1 hl' with hl' | hl'
    · exact h.known l' hl' id hid
    · obtain rfl : l' = l := List.mem_singleton.1 hl'
      exact hknown id hid
  · refine h.guided.concat fun directory hdirectory => ?_
    cases ha with
    | root => cases hdirectory
    | page hitems hnext hserved hmet hb hbelow =>
      cases hdirectory
      exact hmet

end Sound

end Walk

/-! ### Turns -/

section

variable (hs : t.ServedBy site path) (hf : ∀ l ∈ t.visited, l.entry.Finite)
  (hn : ∀ id ∈ t.ids, ∃ name, c₀.nameUnder site id = .ok name)

namespace Entry

/-- The ids of an entry are those of its owner and of its group. -/
theorem mem_ids {e : Entry} {field : String} (hfield : field = "owner" ∨ field = "group")
    (hp : (e.member field).isPresent = true) : (e.member field).display ∈ e.ids := by
  unfold ids
  refine List.mem_map.2 ⟨e.member field, List.mem_filter.2 ⟨?_, hp⟩, rfl⟩
  rcases hfield with rfl | rfl
  · exact List.mem_cons_self
  · exact List.mem_cons_of_mem _ List.mem_cons_self

/-- What holds of the ids of owner and group holds of all ids of an entry. -/
theorem forall_mem_ids {e : Entry} {p : String → Prop}
    (howner : (e.member "owner").isPresent = true → p (e.member "owner").display)
    (hgroup : (e.member "group").isPresent = true → p (e.member "group").display) :
    ∀ id ∈ e.ids, p id := by
  intro id hid
  obtain ⟨v, hv, rfl⟩ := List.mem_map.1 hid
  obtain ⟨hv, hp⟩ := List.mem_filter.1 hv
  rcases List.mem_cons.1 hv with rfl | hv
  · exact howner hp
  · obtain rfl := List.mem_singleton.1 hv
    exact hgroup hp

end Entry

theorem Tree.mem_ids {l : Listed} {id : String} (hl : l ∈ t.visited) (hid : id ∈ l.entry.ids) :
    id ∈ t.ids :=
  List.mem_flatMap.2 ⟨l, hl, hid⟩

include hn in
/-- An id that an entry of the tree gives has a name, and none is needed without an id. -/
theorem Tree.exists_nameOf {l : Listed} (hl : l ∈ t.visited) {field : String}
    (hfield : field = "owner" ∨ field = "group") :
    ∃ name, c₀.nameOf site (l.entry.member field) = .ok name := by
  by_cases hp : (l.entry.member field).isPresent = true
  · rw [Client.nameOf_of_isPresent site c₀ hp]
    exact hn _ (Tree.mem_ids hl (Entry.mem_ids hfield hp))
  · exact ⟨.null, Client.nameOf_of_not_isPresent site c₀ (by simpa using hp)⟩

namespace Walk.Sound

variable {due₁ due₂ : List Listed} {n₁ n₂ : ℕ}

include hs in
/-- The attributes of the root are read. -/
theorem rootTurn (h : w.Sound site t path c₀ requests done due n) (hi : w.tasks[i]? = some (.root path))
    (hothers : Outstanding (Owes site t path c₀ w.client done) (w.tasks.eraseIdx i) due₂ n₂)
    (hdue : due.Perm (t.visited ++ due₂)) (ht : w.taskTurn? site verbose i = some w') :
    w'.SoundBelow site t path c₀ (t.work + n₂ + w.client.left) := by
  obtain ⟨v, hv, hroot⟩ := hs.attributes
  -- One task is left, and that owes all of the tree.
  have hout : Outstanding (Owes site t path c₀ (w.client.send site (.attributesOf path)).1 done)
      [named t.root none] t.visited (9 + t.inside.workUnder t.root) := by
    rw [t.visited_eq]
    simpa using Outstanding.singleton (owes_named t path c₀ _ hs.path hs.inside .root)
  have hsilent : ([] : List Event).filterMap Event.visit? = [] := rfl
  have hsound := h.passOn hothers hdue (r := .attributesOf path) (fun _ => rfl) hsilent hout
  unfold taskTurn? at ht
  rw [hi] at ht
  obtain rfl : _ = w' := by
    simpa [Client.attributes, Client.send, hv, Except.bind, hroot, add, drop] using ht
  refine ⟨_, _, _, _, hsound, ?_⟩
  show _ + w.client.left < _
  simp only [Tree.work]
  omega

/-- A page is read, and after it what comes first on it. -/
theorem pageTurn (h : w.Sound site t path c₀ requests done due n) {directory : String}
    {after? : Option String} {contents : Contents} {branches : List (String × Contents)}
    (hi : w.tasks[i]? = some (.page directory after? (branches.map Prod.fst)))
    (hpages : Pages site directory after? contents) (hserved : contents.ServedBy site)
    (hmet : Met done directory) (hb : ∀ b ∈ branches, Branch site done b)
    (hothers : Outstanding (Owes site t path c₀ w.client done) (w.tasks.eraseIdx i) due₂ n₂)
    (hdue : due.Perm (contents.due directory ++ dueOf branches ++ due₂))
    (ht : w.taskTurn? site verbose i = some w') :
    w'.SoundBelow site t path c₀ (1 + contents.work + workOf branches + n₂ + w.client.left) := by
  cases hpages with
  | @page _ _ page hpage hholds hfollows =>
    obtain ⟨items, hfiles, hitems⟩ := hholds
    have ha : Ahead site done (some ⟨directory, items, page, branches.map Prod.fst⟩) _ _ :=
      .page hitems hfollows hserved hmet hb rfl
    let r : Request := .pageOf directory pageLimit after?
    obtain ⟨remarks, tasks, hsilent, hread, hout⟩ := ha.readOn t path c₀ (w.client.send site r).1
      verbose { w.drop i with client := (w.client.send site r).1 }
    have hsound := h.passOn hothers hdue (r := r) (fun _ => rfl) hsilent hout
    have hreply : (w.client.send site r).2 = .ok page := hpage
    unfold taskTurn? at ht
    rw [hi] at ht
    have hw' : Walk.readOn verbose { w.drop i with client := (w.client.send site r).1 }
        ⟨directory, items, page, branches.map Prod.fst⟩ = w' := by
      simpa [Client.page, hreply, read, hfiles, r] using ht
    rw [hread] at hw'
    subst hw'
    refine ⟨_, _, _, _, hsound, ?_⟩
    show _ + w.client.left < _
    omega

include hf in
/-- An entry is visited, once both names are there. -/
theorem entryTurn (h : w.Sound site t path c₀ requests done due n) {e : Entry} {owner group : Side}
    {cursor? : Option Cursor} {inside : Contents} (hi : w.tasks[i]? = some (.entry e owner group cursor?))
    (hp : ∃ p, e.path = .text p)
    (hd : e.kind.isDirectory = true → Pages site e.place none inside ∧ inside.ServedBy site)
    (howner : owner.Fits site c₀ w.client (e.member "owner"))
    (hgroup : group.Fits site c₀ w.client (e.member "group")) (ha : Ahead site done cursor? due₁ n₁)
    (hothers : Outstanding (Owes site t path c₀ w.client done) (w.tasks.eraseIdx i) due₂ n₂)
    (hdue : due.Perm (⟨cursor?.map Cursor.directory, e⟩ :: (inside.under e ++ due₁) ++ due₂))
    (ht : w.taskTurn? site verbose i = some w') :
    w'.SoundBelow site t path c₀
      (1 + owner.work + group.work + inside.workUnder e + n₁ + n₂ + w.client.left) := by
  unfold taskTurn? at ht
  rw [hi] at ht
  cases ho : owner.name? with
  | none => simp [ho] at ht
  | some ownerName =>
    cases hg : group.name? with
    | none => simp [ho, hg] at ht
    | some groupName =>
      obtain ⟨hownerName, hownerKnown⟩ := howner.of_name? ho
      obtain ⟨hgroupName, hgroupKnown⟩ := hgroup.of_name? hg
      have hl := h.mem_visited (hdue.mem_iff.2 (List.mem_append_left _ List.mem_cons_self))
      obtain ⟨v, hv⟩ := Entry.exists_visit hp (hf _ hl) ownerName groupName
      have hvisits : c₀.Visits site ⟨cursor?.map Cursor.directory, e⟩ v :=
        ⟨ownerName, groupName, hownerName, hgroupName, hv⟩
      obtain ⟨hsound, hclient⟩ := h.arrive hothers hdue hd ha hvisits
        (Entry.forall_mem_ids hownerKnown hgroupKnown) verbose
      obtain rfl : _ = w' := by simpa [ho, hg, hv] using ht
      refine ⟨_, _, _, _, hsound, ?_⟩
      rw [hclient]
      omega

include hs hf in
/-- A task goes on. -/
theorem taskTurn (h : w.Sound site t path c₀ requests done due n)
    (ht : w.taskTurn? site verbose i = some w') :
    w'.SoundBelow site t path c₀ (n + w.client.left) := by
  cases hi : w.tasks[i]? with
  | none => simp [taskTurn?, hi] at ht
  | some task =>
    obtain ⟨due₁, n₁, due₂, n₂, howes, hothers, hdue, rfl⟩ := h.tasks.pick hi
    cases howes with
    | root => exact h.rootTurn hs hi hothers hdue ht
    | page hpages hserved hmet hb => exact h.pageTurn hi hpages hserved hmet hb hothers hdue ht
    | entry hp hd howner hgroup ha =>
      exact h.entryTurn hf hi hp hd howner hgroup ha hothers hdue ht

include hn in
/-- A side of an entry takes a turn; which one, makes no difference. -/
theorem withSide (h : w.Sound site t path c₀ requests done due n) {e : Entry} {owner group side : Side}
    {cursor? : Option Cursor} (hi : w.tasks[i]? = some (.entry e owner group cursor?)) {field : String}
    (hfield : field = "owner" ∨ field = "group") {task : Side → Task} {turn : Client × Except Fault Side}
    (ht : sideTurn? w.client side = some turn)
    (hside : ∀ {c : Client} {due : List Listed} {n : ℕ},
      Owes site t path c₀ c done (.entry e owner group cursor?) due n →
      side.Fits site c₀ c (e.member field) ∧
        ∃ m, n = side.work + m ∧ ∀ {c' : Client} {side' : Side}, c.Grows c' →
          side'.Fits site c₀ c' (e.member field) →
          Owes site t path c₀ c' done (task side') due (side'.work + m)) :
    (w.withSide i turn task).SoundBelow site t path c₀ (n + w.client.left) := by
  obtain ⟨due₁, n₁, due₂, n₂, howes, hothers, hdue, rfl⟩ := h.tasks.pick hi
  have hl : ⟨cursor?.map Cursor.directory, e⟩ ∈ t.visited := by
    cases howes with
    | entry => exact h.mem_visited (hdue.mem_iff.2 (List.mem_append_left _ List.mem_cons_self))
  obtain ⟨hfits, m, rfl, hafter⟩ := hside howes
  obtain ⟨c, r⟩ := turn
  obtain ⟨hclient, hgrows, side', rfl, hfits', hwork⟩ := hfits.turn h.client
    (fun hp => Tree.mem_ids hl (Entry.mem_ids hfield hp)) (Tree.exists_nameOf hn hl hfield) ht
  refine ⟨requests, done, due, side'.work + m + n₂, ?_, ?_⟩
  · refine ⟨h.fault, hclient, ?_, h.all, h.visits, ?_, h.guided⟩
    · have hgrown := hothers.imp fun task due n ho => ho.mono hgrows fun _ hl => hl
      refine (Outstanding.cons (hafter hgrows hfits') hgrown).due_perm hdue |>.perm ?_
      exact set_perm_cons_eraseIdx hi (task side')
    · intro l hl id hid
      obtain ⟨identity, hk⟩ := h.known l hl id hid
      exact ⟨identity, hgrows.known id identity hk⟩
  · show _ + c.left < _
    omega

include hn in
/-- A lookup makes its next request. -/
theorem lookupTurn (h : w.Sound site t path c₀ requests done due n)
    (ht : w.step? site verbose (.lookup i) = some w') :
    w'.SoundBelow site t path c₀ (n + w.client.left) := by
  cases hi : w.client.underWay[i]? with
  | none => simp [step?, hi] at ht
  | some l =>
    obtain ⟨h₀, _, hwanted, _, _⟩ := h.client.of_underWay (List.mem_of_getElem? hi)
    -- The id is one of the tree, and it was not known before, so the lookup brings its identity.
    obtain ⟨identity, hidentity⟩ : ∃ identity, site.resolve l.id = .ok identity := by
      obtain ⟨name, hname⟩ := hn l.id hwanted
      simp only [Client.nameUnder, Client.identityOf, h₀] at hname
      cases hr : site.resolve l.id with
      | ok identity => exact ⟨identity, rfl⟩
      | error f =>
        rw [hr] at hname
        cases hname
    have hclient := h.client.advance hi hidentity
    have hgrows := Client.grows_advance h.client hi hidentity
    have hleft := Client.left_advance_lt h.client hi hidentity
    obtain rfl : { w with client := w.client.advance site i } = w' := by
      have hstanding : (w.client.advance site i).standing l.id ≠ .failed .interrupted := by
        unfold Client.standing
        rw [hclient.failed]
        cases (w.client.advance site i).cache.find? l.id <;> simp [Catalog.find?]
      simpa [step?, hi, hstanding] using ht
    refine ⟨l.request :: requests, done, due, n, ?_, Nat.add_lt_add_left hleft n⟩
    refine ⟨h.fault, hclient, ?_, h.all, h.visits, ?_, h.guided⟩
    · exact h.tasks.imp fun task due n ho => ho.mono hgrows fun _ hl => hl
    · intro l' hl' id hid
      obtain ⟨known, hk⟩ := h.known l' hl' id hid
      exact ⟨known, hgrows.known id known hk⟩

include hs hf hn in
/-- **Every possible turn keeps the invariant, and leaves fewer turns to be taken.** -/
theorem step (h : w.Sound site t path c₀ requests done due n) {turn : Turn}
    (ht : w.step? site verbose turn = some w') : w'.SoundBelow site t path c₀ (n + w.client.left) := by
  cases turn with
  | task i => exact h.taskTurn hs hf ht
  | lookup i => exact h.lookupTurn hn ht
  | owner i =>
    simp only [step?] at ht
    split at ht
    · rename_i e owner group cursor? hi
      obtain ⟨turn, hturn, rfl⟩ := Option.map_eq_some_iff.1 ht
      exact h.withSide hn hi (.inl rfl) hturn Owes.owner
    · cases ht
  | group i =>
    simp only [step?] at ht
    split at ht
    · rename_i e owner group cursor? hi
      obtain ⟨turn, hturn, rfl⟩ := Option.map_eq_some_iff.1 ht
      exact h.withSide hn hi (.inr rfl) hturn Owes.group
    · cases ht

include hs hf hn in
/-- What holds of a walk holds after any turns, and these are no more than were to be taken. -/
theorem after (h : w.Sound site t path c₀ requests done due n) {turns : List Turn}
    (ht : w.after? site verbose turns = some w') :
    ∃ requests' done' due' n', w'.Sound site t path c₀ requests' done' due' n' ∧
      turns.length + (n' + w'.client.left) ≤ n + w.client.left := by
  induction turns generalizing w requests done due n with
  | nil =>
    cases ht
    exact ⟨requests, done, due, n, h, by simp⟩
  | cons turn turns ih =>
    obtain ⟨w₁, hstep, hafter⟩ := Option.bind_eq_some_iff.1 ht
    obtain ⟨requests₁, done₁, due₁, n₁, h₁, hlt⟩ := h.step hs hf hn hstep
    obtain ⟨requests', done', due', n', h', hle⟩ := ih h₁ hafter
    refine ⟨requests', done', due', n', h', ?_⟩
    rw [List.length_cons]
    omega

end Walk.Sound

end

end UsageLedger.Cluster
