/-
UsageLedger/Proofs/Cluster/Complete.lean

Walks over a cluster are complete and exact.  As long as a task or a lookup is left
a turn is possible, so a walk that cannot go on has visited what it owed: the root
and every entry of a counted kind, each once, and a directory before all that is
inside it (`Walk.complete`).  The same holds of the walk that `Walk.run` takes, if it
may take enough turns (`Walk.run_complete`).

An infinite size is a fault and breaks the walk off, so the sizes and the blocks of
files must be finite; `Walk.broken_off_by_infinite_size` is such a walk.
-/
import UsageLedger.Proofs.Cluster.Sound

namespace UsageLedger.Cluster

variable {site : Site} {t : Tree} {path : String} {c c₀ : Client} {w : Walk} {verbose : Bool}
  {requests : List Request} {done due : List Listed} {n : ℕ}

/-! ### Possible turns -/

namespace Walk

/-- A side that is found ready belongs to an entry, and its turn is possible. -/
theorem step?_isSome_of_readySide? {tasks before : List Task} {turn : Turn}
    (hw : w.tasks = before ++ tasks) (h : readySide? w.client before.length tasks = some turn) :
    (w.step? site verbose turn).isSome = true := by
  induction tasks generalizing before with
  | nil => cases h
  | cons task rest ih =>
    have hnext : w.tasks = (before ++ [task]) ++ rest := by simpa using hw
    have hplace : w.tasks[before.length]? = some task := by simp [hw]
    cases task with
    | root path => exact ih hnext (by simpa [readySide?] using h)
    | page directory after? below => exact ih hnext (by simpa [readySide?] using h)
    | entry e owner group cursor? =>
      simp only [readySide?] at h
      split at h
      · rename_i howner
        cases h
        simpa [step?, hplace] using howner
      · split at h
        · rename_i hgroup
          cases h
          simpa [step?, hplace] using hgroup
        · exact ih hnext (by simpa using h)

/-- Where no side is found ready none is. -/
theorem sideTurn?_eq_none_of_readySide? {tasks : List Task} {k : ℕ}
    (h : readySide? c k tasks = none) {e : Entry} {owner group : Side} {cursor? : Option Cursor}
    (hm : .entry e owner group cursor? ∈ tasks) :
    (sideTurn? c owner).isSome = false ∧ (sideTurn? c group).isSome = false := by
  induction tasks generalizing k with
  | nil => cases hm
  | cons task rest ih =>
    cases task with
    | root path => exact ih (by simpa [readySide?] using h) (by simpa using hm)
    | page directory after? below => exact ih (by simpa [readySide?] using h) (by simpa using hm)
    | entry e' owner' group' cursor'? =>
      simp only [readySide?] at h
      split at h
      · cases h
      · rename_i howner
        split at h
        · cases h
        · rename_i hgroup
          rcases List.mem_cons.1 hm with heq | hm
          · cases heq
            exact ⟨by simpa using howner, by simpa using hgroup⟩
          · exact ih h hm

namespace Sound

/-- The task that waits longest can go on where no side is ready and no lookup under way: then the names
that it may be waiting for are there. -/
theorem taskTurn?_isSome (h : w.Sound site t path c₀ requests done due n)
    (hready : readySide? w.client 0 w.tasks = none) (hunder : w.client.underWay = []) {task : Task}
    (htask : w.tasks[0]? = some task) : (w.taskTurn? site verbose 0).isSome = true := by
  obtain ⟨due₁, n₁, due₂, n₂, howes, -, -, -⟩ := h.tasks.pick htask
  cases howes with
  | root =>
    simp only [taskTurn?, htask]
    split <;> rfl
  | page =>
    simp only [taskTurn?, htask]
    split <;> rfl
  | @entry e owner group cursor? inside due₁ m hp hd howner hgroup ha =>
    obtain ⟨hownerReady, hgroupReady⟩ :=
      sideTurn?_eq_none_of_readySide? hready (List.mem_of_getElem? htask)
    have named {side : Side} {id : Json} (hfits : side.Fits site c₀ w.client id)
        (hnot : (sideTurn? w.client side).isSome = false) : ∃ name, side.name? = some name := by
      cases hname : side.name? with
      | some name => exact ⟨name, rfl⟩
      | none =>
        rw [hfits.sideTurn?_isSome hname hunder] at hnot
        cases hnot
    obtain ⟨ownerName, ho⟩ := named howner hownerReady
    obtain ⟨groupName, hg⟩ := named hgroup hgroupReady
    simp only [taskTurn?, htask, ho, hg]
    split <;> rfl

/-- **A walk is at its end or its next turn is possible.** -/
theorem nextTurn?_cases (h : w.Sound site t path c₀ requests done due n) (verbose : Bool) :
    (w.nextTurn? = none ∧ w.tasks = [] ∧ w.client.underWay = []) ∨
      ∃ turn w', w.nextTurn? = some turn ∧ w.step? site verbose turn = some w' := by
  have possible (turn : Turn) (ht : w.nextTurn? = some turn)
      (hs : (w.step? site verbose turn).isSome = true) :
      ∃ turn w', w.nextTurn? = some turn ∧ w.step? site verbose turn = some w' := by
    obtain ⟨w', hw'⟩ := Option.isSome_iff_exists.1 hs
    exact ⟨turn, w', ht, hw'⟩
  have hside (turn : Turn) (hready : readySide? w.client 0 w.tasks = some turn) :
      w.nextTurn? = some turn := by
    unfold nextTurn?
    rw [h.fault, hready]
    rfl
  have hrest (hready : readySide? w.client 0 w.tasks = none) : w.nextTurn? =
      if !w.client.underWay.isEmpty then some (.lookup 0)
      else if w.tasks.isEmpty then none else some (.task 0) := by
    unfold nextTurn?
    rw [h.fault, hready]
    rfl
  cases hready : readySide? w.client 0 w.tasks with
  | some turn =>
    have hall : w.tasks = [] ++ w.tasks := rfl
    exact .inr (possible turn (hside turn hready) (step?_isSome_of_readySide? hall hready))
  | none =>
    have hnext := hrest hready
    cases hunder : w.client.underWay with
    | cons l rest =>
      refine .inr (possible (.lookup 0) (by simpa [hunder] using hnext) ?_)
      have hl : w.client.underWay[0]? = some l := by rw [hunder, List.getElem?_cons_zero]
      simp only [step?, hl]
      split <;> rfl
    | nil =>
      cases htasks : w.tasks with
      | nil =>
        refine .inl ⟨?_, rfl, rfl⟩
        simpa [hunder, htasks] using hnext
      | cons task rest =>
        refine .inr (possible (.task 0) (by simpa [hunder, htasks] using hnext) ?_)
        have htask : w.tasks[0]? = some task := by rw [htasks, List.getElem?_cons_zero]
        exact h.taskTurn?_isSome hready hunder htask

/-- A walk that cannot go on has neither tasks nor lookups left. -/
theorem of_over (h : w.Sound site t path c₀ requests done due n) (ho : w.Over site verbose) :
    w.tasks = [] ∧ w.client.underWay = [] := by
  rcases h.nextTurn?_cases verbose with ⟨-, htasks, hunder⟩ | ⟨turn, w', -, hstep⟩
  · exact ⟨htasks, hunder⟩
  · rw [ho turn] at hstep
    cases hstep

/-- Where no task is left everything is done. -/
theorem perm_visited (h : w.Sound site t path c₀ requests done due n) (htasks : w.tasks = []) :
    done.Perm t.visited := by
  have hdue : due = [] := (htasks ▸ h.tasks).of_nil
  simpa [hdue] using h.all

end Sound

end Walk

/-! ### The order of visits -/

/-- All that is listed in a tree, the root with it. -/
def Tree.listed (t : Tree) : List Listed := ⟨none, t.root⟩ :: t.below

/-- What is inside a directory: what it lists, and what is inside of that. -/
inductive Tree.Inside (t : Tree) (directory : Listed) : Listed → Prop
  | listed {l : Listed} : l.directory? = some directory.entry.place → Inside t directory l
  | deeper {m l : Listed} : m ∈ t.visited → t.Inside directory m →
      l.directory? = some m.entry.place → Inside t directory l

/-- Leaving out what is of no counted kind leaves all directories. -/
theorem Guided.filter {order : List Listed} (h : Guided order) :
    Guided (order.filter (·.entry.kind.isCounted)) := by
  intro before l later he directory hd
  obtain ⟨before₁, rest, rfl, rfl, hrest⟩ := List.filter_eq_append_iff.1 he
  obtain ⟨skipped, later₁, rfl, hskipped, -, -⟩ := List.filter_eq_cons_iff.1 hrest
  obtain ⟨m, hm, hdir, hplace⟩ := h (before₁ ++ skipped) l later₁ (by simp) directory hd
  have hcounted := NodeKind.isCounted_of_isDirectory hdir
  refine ⟨m, List.mem_filter.2 ⟨?_, hcounted⟩, hdir, hplace⟩
  rcases List.mem_append.1 hm with hm | hm
  · exact hm
  · exact absurd hcounted (hskipped m hm)

variable (hdistinct : (t.listed.map fun l => l.entry.place).Nodup)

theorem Tree.visited_sublist (t : Tree) : t.visited.Sublist t.listed :=
  List.filter_sublist.cons_cons _

include hdistinct in
/-- With distinct paths a directory comes before all that is inside it. -/
theorem Guided.mem_of_inside {order : List Listed} (h : Guided order)
    (hsub : ∀ l ∈ order, l ∈ t.visited) {before later : List Listed} {d l : Listed}
    (he : order = before ++ l :: later) (hd : d ∈ t.visited) (hin : t.Inside d l) : d ∈ before := by
  have unique {m m' : Listed} (hm : m ∈ t.visited) (hm' : m' ∈ t.visited)
      (hp : m.entry.place = m'.entry.place) : m = m' :=
    List.inj_on_of_nodup_map hdistinct (t.visited_sublist.subset hm) (t.visited_sublist.subset hm') hp
  have mem {m : Listed} (hm : m ∈ before) : m ∈ t.visited :=
    hsub m (he ▸ List.mem_append_left _ hm)
  induction hin generalizing before later with
  | listed hdirectory =>
    obtain ⟨m, hm, -, hplace⟩ := h _ _ _ he _ hdirectory
    rwa [← unique (mem hm) hd hplace]
  | @deeper m l hm _ hdirectory ih =>
    -- The directory between the two comes before the entry, and the outer one before that.
    obtain ⟨m', hm', -, hplace⟩ := h _ _ _ he _ hdirectory
    obtain rfl : m' = m := unique (mem hm') hm hplace
    obtain ⟨before₁, between, rfl⟩ := List.append_of_mem hm'
    have he' : order = before₁ ++ m' :: (between ++ l :: later) := by simpa using he
    have hd₁ := ih he' fun hx => mem (List.mem_append_left _ hx)
    exact List.mem_append_left _ hd₁

/-! ### Complete walks -/

/-- A visit is at the path of its entry. -/
theorem Client.Visits.path_eq {l : Listed} {v : Visit} (h : c.Visits site l v) :
    v.path = l.entry.place := by
  obtain ⟨owner, group, -, -, hv⟩ := h
  obtain ⟨name, size, blocks, -, -, rfl⟩ := Entry.visit_eq_ok hv
  rfl

theorem Client.paths_of_visits {order : List Listed} {visits : List Visit}
    (h : List.Forall₂ (c.Visits site) order visits) :
    visits.map Visit.path = order.map fun l => l.entry.place := by
  rw [← List.forall₂_eq_eq_eq, List.forall₂_map_left_iff, List.forall₂_map_right_iff]
  exact h.flip.imp fun v l hv => Visits.path_eq hv

/-- What a complete walk comes to.  In some order, in which a directory comes before all that is inside
it, the root and every entry of a counted kind is visited, each once and under its own path. -/
structure Walk.Complete (site : Site) (t : Tree) (c : Client) (w : Walk) : Prop where
  tasks : w.tasks = []
  order : ∃ order, order.Perm (t.visited.filter (·.entry.kind.isCounted)) ∧
    List.Forall₂ (c.Visits site) order w.traversal.visits ∧
    ∀ before l later, order = before ++ l :: later → ∀ d ∈ t.visited, t.Inside d l → d ∈ before
  nodup : (w.traversal.visits.map Visit.path).Nodup

include hdistinct in
theorem Walk.Sound.complete_of_nil (h : w.Sound site t path c₀ requests done due n) (htasks : w.tasks = []) :
    w.Complete site t c₀ where
  tasks := htasks
  order := by
    have hperm := (h.perm_visited htasks).filter (·.entry.kind.isCounted)
    refine ⟨done.filter (·.entry.kind.isCounted), hperm, h.visits, ?_⟩
    intro before l later he d hd hin
    refine h.guided.filter.mem_of_inside hdistinct (fun l hl => ?_) he hd hin
    exact (List.mem_filter.1 (hperm.mem_iff.1 hl)).1
  nodup := by
    have hsub : ((t.visited.filter (·.entry.kind.isCounted)).map fun l => l.entry.place).Sublist
        (t.listed.map fun l => l.entry.place) :=
      ((List.filter_sublist).trans t.visited_sublist).map _
    rw [Client.paths_of_visits h.visits]
    exact (((h.perm_visited htasks).filter _).map _).nodup_iff.2 (hdistinct.sublist hsub)

section

variable (hs : t.ServedBy site path) (hf : ∀ l ∈ t.visited, l.entry.Finite)
  (hn : ∀ id ∈ t.ids, ∃ name, c₀.nameUnder site id = .ok name)

include hs hf hn

include hdistinct in
/-- **A walk over a served tree is complete and exact, in whatever order its turns are taken.**  It takes
a bounded number of turns and no fault occurs, and when it cannot go on, it has visited the whole
tree. -/
theorem Walk.complete (verbose : Bool) (turns : List Turn) (w : Walk)
    (hw : (Walk.start c₀ path).after? site verbose turns = some w) :
    turns.length ≤ t.work ∧ w.fault = none ∧ (w.Over site verbose → w.Complete site t c₀) := by
  obtain ⟨requests, done, due, n, h, hle⟩ := (Sound.start site t path c₀).after hs hf hn hw
  refine ⟨?_, h.fault, fun ho => h.complete_of_nil hdistinct (h.of_over ho).1⟩
  have hleft : (Walk.start c₀ path).client.left = 0 := rfl
  omega

omit hs hf hn in
/-- The paths visited are those of the root and of all entries of a counted kind. -/
theorem Walk.Complete.paths_perm (h : w.Complete site t c) :
    (w.traversal.visits.map Visit.path).Perm
      ((t.visited.filter (·.entry.kind.isCounted)).map fun l => l.entry.place) := by
  obtain ⟨order, hperm, hvisits, -⟩ := h.order
  rw [Client.paths_of_visits hvisits]
  exact hperm.map _

/-- Enough turns of the walk's own choice bring it to its end. -/
theorem Walk.Sound.run (h : w.Sound site t path c₀ requests done due n) (verbose : Bool) {limit : ℕ}
    (hle : n + w.client.left ≤ limit) :
    ∃ requests' done' due' n', (w.run site verbose limit).Sound site t path c₀ requests' done' due' n' ∧
      (w.run site verbose limit).tasks = [] := by
  induction limit generalizing w requests done due n with
  | zero =>
    rcases h.nextTurn?_cases verbose with ⟨hnone, htasks, -⟩ | ⟨turn, w', -, hstep⟩
    · have hrun : w.run site verbose 0 = w := by simp [Walk.run, hnone]
      rw [hrun]
      exact ⟨requests, done, due, n, h, htasks⟩
    · obtain ⟨_, _, _, n', -, hlt⟩ := h.step hs hf hn hstep
      omega
  | succ limit ih =>
    rcases h.nextTurn?_cases verbose with ⟨hnone, htasks, -⟩ | ⟨turn, w', hnext, hstep⟩
    · have hrun : w.run site verbose (limit + 1) = w := by simp [Walk.run, hnone]
      rw [hrun]
      exact ⟨requests, done, due, n, h, htasks⟩
    · have hrun : w.run site verbose (limit + 1) = w'.run site verbose limit := by
        simp [Walk.run, hnext, hstep]
      obtain ⟨requests', done', due', n', h', hlt⟩ := h.step hs hf hn hstep
      rw [hrun]
      exact ih h' (by omega)

include hdistinct in
/-- The walk that is run is complete, if it may take enough turns. -/
theorem Walk.run_complete (verbose : Bool) {limit : ℕ} (hlimit : t.work ≤ limit) :
    ((Walk.start c₀ path).run site verbose limit).fault = none ∧
      ((Walk.start c₀ path).run site verbose limit).Complete site t c₀ := by
  have hle : t.work + (Walk.start c₀ path).client.left ≤ limit := hlimit
  obtain ⟨requests, done, due, n, h, htasks⟩ :=
    (Sound.start site t path c₀).run hs hf hn verbose hle
  exact ⟨h.fault, h.complete_of_nil hdistinct htasks⟩

end

/-! ### A walk that is complete, and one that is not -/

/-- A client that knows no identity. -/
def Client.fresh : Client := .ofCache []

namespace Project

theorem finite : ∀ l ∈ tree.visited, l.entry.Finite := by decide +kernel

theorem distinct : (tree.listed.map fun l => l.entry.place).Nodup := by decide +kernel

theorem named : ∀ id ∈ tree.ids, ∃ name, Client.fresh.nameUnder Project.site id = .ok name := by
  have hids : tree.ids = ["1", "2", "1", "2"] := by decide +kernel
  have hann : Client.fresh.nameUnder Project.site "1" = .ok (.text "ann") := by cbv
  have hben : Client.fresh.nameUnder Project.site "2" = .ok (.text "ben") := by cbv
  rw [hids]
  intro id hid
  simp only [List.mem_cons, List.not_mem_nil, or_false] at hid
  rcases hid with rfl | rfl | rfl | rfl
  · exact ⟨_, hann⟩
  · exact ⟨_, hben⟩
  · exact ⟨_, hann⟩
  · exact ⟨_, hben⟩

/-- Every walk over the project comes to its five nodes, the socket apart. -/
theorem complete_walk : tree.ServedBy Project.site "/p/" ∧
    ∀ turns w, (Walk.start .fresh "/p/").after? Project.site true turns = some w →
      turns.length ≤ 49 ∧ w.fault = none ∧ (w.Over Project.site true →
        (w.traversal.visits.map Visit.path).Perm
          ["/p", "/p/notes", "/p/data", "/p/data/table", "/p/link"]) := by
  refine ⟨tree_servedBy, fun turns w hw => ?_⟩
  obtain ⟨hlength, hfault, hcomplete⟩ :=
    Walk.complete distinct tree_servedBy finite named true turns w hw
  have hwork : tree.work = 49 := by decide +kernel
  have hpaths : ((tree.visited.filter (·.entry.kind.isCounted)).map fun l => l.entry.place) =
      ["/p", "/p/notes", "/p/data", "/p/data/table", "/p/link"] := by decide +kernel
  exact ⟨hwork ▸ hlength, hfault, fun ho => hpaths ▸ (hcomplete ho).paths_perm⟩

end Project

theorem Overflow.named :
    ∀ id ∈ Overflow.tree.ids, ∃ name, Client.fresh.nameUnder Overflow.site id = .ok name := by
  have hids : Overflow.tree.ids = ["1", "1", "2"] := by decide +kernel
  have hann : Client.fresh.nameUnder Overflow.site "1" = .ok (.text "ann") := by cbv
  have hben : Client.fresh.nameUnder Overflow.site "2" = .ok (.text "ben") := by cbv
  rw [hids]
  intro id hid
  simp only [List.mem_cons, List.not_mem_nil, or_false] at hid
  rcases hid with rfl | rfl | rfl
  · exact ⟨_, hann⟩
  · exact ⟨_, hann⟩
  · exact ⟨_, hben⟩

/-- A walk without tasks and without lookups cannot go on. -/
theorem Walk.over_of_nil (site : Site) (verbose : Bool) (htasks : w.tasks = [])
    (hunder : w.client.underWay = []) : w.Over site verbose := by
  intro turn
  cases turn <;> simp [step?, taskTurn?, htasks, hunder]

/-- A walk that cannot go on, broken off before it has asked for the second identity. -/
theorem Overflow.exists_walk :
    ∃ turns w, (Walk.start .fresh "/d").after? Overflow.site false turns = some w ∧
      w.Over Overflow.site false ∧ w.fault = some .outOfRange ∧
      w.traversal.visits.map Visit.path = ["/d"] ∧ w.client.sent.count (.expand "2") = 0 := by
  have hrun : ((Walk.start .fresh "/d").after? Overflow.site false
      [.task 0, .owner 0, .group 0, .lookup 0, .owner 0, .task 0, .task 0, .owner 0, .group 0,
        .task 0]).map (fun w =>
          (w.tasks.length, w.client.underWay, w.fault, w.traversal.visits.map Visit.path,
            w.client.sent.count (.expand "2"))) =
      some (0, [], some .outOfRange, ["/d"], 0) := by decide +kernel
  obtain ⟨w, hw, hends⟩ := Option.map_eq_some_iff.1 hrun
  obtain ⟨htasks, hunder, hfault, hpaths, hcount⟩ : w.tasks.length = 0 ∧ w.client.underWay = [] ∧
      w.fault = some .outOfRange ∧ w.traversal.visits.map Visit.path = ["/d"] ∧
      w.client.sent.count (.expand "2") = 0 := by
    simpa only [Prod.mk.injEq] using hends
  have hover := Walk.over_of_nil Overflow.site false (List.length_eq_zero_iff.1 htasks) hunder
  exact ⟨_, w, hw, hover, hfault, hpaths, hcount⟩

/-- A cluster serves the tree, its paths are distinct and its ids have names: still the infinite size is a
fault, the walk ends there, and the file after it is never visited. -/
theorem Walk.broken_off_by_infinite_size :
    Overflow.tree.ServedBy Overflow.site "/d" ∧
      (Overflow.tree.listed.map fun l => l.entry.place).Nodup ∧
      (∀ id ∈ Overflow.tree.ids, ∃ name, Client.fresh.nameUnder Overflow.site id = .ok name) ∧
      ∃ turns w, (Walk.start .fresh "/d").after? Overflow.site false turns = some w ∧
        w.Over Overflow.site false ∧ w.fault = some .outOfRange ∧
        ¬ w.Complete Overflow.site Overflow.tree .fresh := by
  obtain ⟨turns, w, hw, hover, hfault, hpaths, -⟩ := Overflow.exists_walk
  refine ⟨Overflow.tree_servedBy, by decide +kernel, Overflow.named, turns, w, hw, hover, hfault, ?_⟩
  intro hcomplete
  have hlength := hcomplete.paths_perm.length_eq
  rw [hpaths] at hlength
  revert hlength
  decide +kernel

end UsageLedger.Cluster
