/-
UsageLedger/Proofs/Cluster/Outstanding.lean

What the tasks of a walk still owe.  A task owes the visits of certain entries, and
it owes them within a number of turns: `Owes` reads both off the part of the served
tree that the task has before it.  An entry that waits for its names owes its own
visit, what it holds, and what its page and the pages after it still list; a task
that waits for a page owes what the directory lists from that page on, and the
directories that were met on the pages before.

`Outstanding` adds this up over all tasks.  Reading on in a page passes what is owed
from a cursor to new tasks and neither loses nor repeats any of it (`Ahead.readOn`).
-/
import UsageLedger.Proofs.Cluster.Names
import UsageLedger.Proofs.Cluster.Served

namespace UsageLedger.Cluster

/-! ### Work -/

namespace Contents

/-- The number of turns that it takes to go through a directory with these contents, and below it. -/
def work : Contents → ℕ
  | nil => 0
  | nextPage rest => 1 + rest.work
  | entry e inside rest =>
    (if e.kind.isCounted then 9 else 0) + (if e.kind.isDirectory then 1 + inside.work else 0) + rest.work

/-- The number of turns that it takes to go through what an entry holds. -/
def workUnder (inside : Contents) (e : Entry) : ℕ :=
  if e.kind.isDirectory then 1 + inside.work else 0

/-- The contents from the first entry on that is counted, or from the end of the page. -/
def skip : Contents → Contents
  | entry e inside rest => if e.kind.isCounted then entry e inside rest else rest.skip
  | c => c

end Contents

/-- The number of turns that a walk over a tree may take. -/
def Tree.work (t : Tree) : ℕ := 10 + t.inside.workUnder t.root

variable {site : Site} {t : Tree} {path directory : String} {c₀ c c' : Client}
  {done done' due due' : List Listed} {n n' : ℕ}

theorem NodeKind.isCounted_of_isDirectory {k : NodeKind} (h : k.isDirectory = true) :
    k.isCounted = true := by
  cases k with
  | directory => rfl
  | _ => cases h

namespace Contents

/-- What is left out owes nothing. -/
theorem skip_spec (site : Site) (directory : String) (c : Contents) :
    c.skip.due directory = c.due directory ∧ c.skip.work = c.work ∧ c.skip.later? = c.later? ∧
      (c.ServedBy site → c.skip.ServedBy site) := by
  induction c with
  | nil => exact ⟨rfl, rfl, rfl, fun h => h⟩
  | nextPage rest => exact ⟨rfl, rfl, rfl, fun h => h⟩
  | entry e inside rest _ ih =>
    by_cases he : e.kind.isCounted = true
    · have hskip : (entry e inside rest).skip = entry e inside rest := by rw [skip, if_pos he]
      rw [hskip]
      exact ⟨rfl, rfl, rfl, fun h => h⟩
    · have hskip : (entry e inside rest).skip = rest.skip := by rw [skip, if_neg he]
      have hd : e.kind.isDirectory = false := by
        by_contra hd
        exact he (NodeKind.isCounted_of_isDirectory (by simpa using hd))
      obtain ⟨hdue, hwork, hlater, hserved⟩ := ih
      rw [hskip]
      refine ⟨?_, ?_, hlater, fun h => hserved h.2.2⟩
      · rw [hdue, due_entry_of_not (by simpa using he)]
      · rw [hwork, work, if_neg he, hd]
        simp

/-- Reading on in a page ends at its end or at a counted entry, with remarks at most. -/
theorem nextEntry_skip (verbose : Bool) {items : List Json} {c : Contents}
    (h : List.Forall₂ (fun v e => Entry.ofJson v "" = .ok e) items c.page) :
    ∃ remarks, remarks.filterMap Event.visit? = [] ∧
      ((c.skip.page = [] ∧ Walk.nextEntry verbose items = (remarks, .ok none)) ∨
        ∃ e inside rest items', c.skip = entry e inside rest ∧ e.kind.isCounted = true ∧
          List.Forall₂ (fun v e => Entry.ofJson v "" = .ok e) items' rest.page ∧
          Walk.nextEntry verbose items = (remarks, .ok (some (e, items')))) := by
  induction c generalizing items with
  | nil =>
    cases h
    exact ⟨[], rfl, .inl ⟨rfl, rfl⟩⟩
  | nextPage rest =>
    cases h
    exact ⟨[], rfl, .inl ⟨rfl, rfl⟩⟩
  | entry e inside rest _ ih =>
    cases h with
    | @cons v _ items' _ hv hrest =>
      by_cases he : e.kind.isCounted = true
      · refine ⟨[], rfl, .inr ⟨e, inside, rest, items', ?_, he, hrest, ?_⟩⟩
        · rw [skip, if_pos he]
        · simp [Walk.nextEntry, hv, he]
      · have hskip : (entry e inside rest).skip = rest.skip := by rw [skip, if_neg he]
        obtain ⟨remarks, hnone, hcases⟩ := ih hrest
        have hnext : Walk.nextEntry verbose (v :: items') =
            ((if verbose then .remark e.skipped :: (Walk.nextEntry verbose items').1
              else (Walk.nextEntry verbose items').1), (Walk.nextEntry verbose items').2) := by
          simp [Walk.nextEntry, hv, he]
        rw [hskip, hnext]
        refine ⟨if verbose then .remark e.skipped :: remarks else remarks, ?_, ?_⟩
        · split
          · rw [List.filterMap_cons_none rfl, hnone]
          · exact hnone
        · rcases hcases with ⟨hpage, hn⟩ | ⟨e', inside', rest', items'', hc, he', hitems, hn⟩
          · rw [hn]
            exact .inl ⟨hpage, rfl⟩
          · rw [hn]
            exact .inr ⟨e', inside', rest', items'', hc, he', hitems, rfl⟩

end Contents

/-! ### What a task owes -/

/-- A directory with this path has been visited. -/
def Met (done : List Listed) (directory : String) : Prop :=
  ∃ l ∈ done, l.entry.kind.isDirectory = true ∧ l.entry.place = directory

/-- A directory, with what it holds, that has been visited but not been listed. -/
structure Branch (site : Site) (done : List Listed) (b : String × Contents) : Prop where
  pages : Pages site b.1 none b.2
  served : b.2.ServedBy site
  met : Met done b.1

/-- What directories owe that are still to be listed. -/
def dueOf (branches : List (String × Contents)) : List Listed :=
  branches.flatMap fun b => b.2.due b.1

/-- In how many turns they owe it. -/
def workOf (branches : List (String × Contents)) : ℕ := (branches.map fun b => 1 + b.2.work).sum

/-- What is owed after an entry and what it holds, and in how many turns: nothing after the root, else
what the cursor has before it. -/
inductive Ahead (site : Site) (done : List Listed) : Option Cursor → List Listed → ℕ → Prop
  | root : Ahead site done none [] 0
  | page {cur : Cursor} {c : Contents} {branches : List (String × Contents)} :
      List.Forall₂ (fun v e => Entry.ofJson v "" = .ok e) cur.rest c.page →
      Follows site cur.directory cur.page c.later? → c.ServedBy site → Met done cur.directory →
      (∀ b ∈ branches, Branch site done b) → cur.below = branches.map Prod.fst →
      Ahead site done (some cur) (c.due cur.directory ++ dueOf branches) (c.work + workOf branches)

/-- What a task of a walk owes, and in how many turns. -/
inductive Owes (site : Site) (t : Tree) (path : String) (c₀ c : Client) (done : List Listed) :
    Task → List Listed → ℕ → Prop
  | root : Owes site t path c₀ c done (.root path) t.visited t.work
  | page {directory : String} {after? : Option String} {contents : Contents}
      {branches : List (String × Contents)} :
      Pages site directory after? contents → contents.ServedBy site → Met done directory →
      (∀ b ∈ branches, Branch site done b) →
      Owes site t path c₀ c done (.page directory after? (branches.map Prod.fst))
        (contents.due directory ++ dueOf branches) (1 + contents.work + workOf branches)
  | entry {e : Entry} {owner group : Side} {cursor? : Option Cursor} {inside : Contents}
      {due : List Listed} {n : ℕ} :
      (∃ p, e.path = .text p) →
      (e.kind.isDirectory = true → Pages site e.place none inside ∧ inside.ServedBy site) →
      owner.Fits site c₀ c (e.member "owner") → group.Fits site c₀ c (e.member "group") →
      Ahead site done cursor? due n →
      Owes site t path c₀ c done (.entry e owner group cursor?)
        (⟨cursor?.map Cursor.directory, e⟩ :: (inside.under e ++ due))
        (1 + owner.work + group.work + inside.workUnder e + n)

theorem Met.mono (h : Met done directory) (hs : ∀ l ∈ done, l ∈ done') : Met done' directory := by
  obtain ⟨l, hl, hd⟩ := h
  exact ⟨l, hs l hl, hd⟩

theorem Branch.mono {b : String × Contents} (h : Branch site done b) (hs : ∀ l ∈ done, l ∈ done') :
    Branch site done' b :=
  ⟨h.pages, h.served, h.met.mono hs⟩

theorem Ahead.mono {cursor? : Option Cursor} (h : Ahead site done cursor? due n)
    (hs : ∀ l ∈ done, l ∈ done') : Ahead site done' cursor? due n := by
  cases h with
  | root => exact .root
  | page hitems hnext hserved hmet hb hbelow =>
    exact .page hitems hnext hserved (hmet.mono hs) (fun b h => (hb b h).mono hs) hbelow

/-- What a task owes it owes still when the client has gone on and more has been visited. -/
theorem Owes.mono {task : Task} (h : Owes site t path c₀ c done task due n) (hg : c.Grows c')
    (hs : ∀ l ∈ done, l ∈ done') : Owes site t path c₀ c' done' task due n := by
  cases h with
  | root => exact .root
  | page hp hserved hmet hb => exact .page hp hserved (hmet.mono hs) fun b h => (hb b h).mono hs
  | entry hp hd howner hgroup ha =>
    exact .entry hp hd (howner.grow hg) (hgroup.grow hg) (ha.mono hs)

/-- The owner's side of an entry apart.  With another side there the task owes the same, in as many turns
as that side takes and all the rest. -/
theorem Owes.owner {e : Entry} {owner group : Side} {cursor? : Option Cursor}
    (h : Owes site t path c₀ c done (.entry e owner group cursor?) due n) :
    owner.Fits site c₀ c (e.member "owner") ∧ ∃ m, n = owner.work + m ∧ ∀ {c' : Client} {side : Side},
      c.Grows c' → side.Fits site c₀ c' (e.member "owner") →
        Owes site t path c₀ c' done (.entry e side group cursor?) due (side.work + m) := by
  cases h with
  | @entry _ _ _ _ inside _ m hp hd howner hgroup ha =>
    refine ⟨howner, 1 + group.work + inside.workUnder e + m, by omega, fun {c' side} hg hfits => ?_⟩
    have howes : Owes site t path c₀ c' done (.entry e side group cursor?) _ _ :=
      .entry hp hd hfits (hgroup.grow hg) ha
    have hwork : side.work + (1 + group.work + inside.workUnder e + m) =
        1 + side.work + group.work + inside.workUnder e + m := by omega
    rw [hwork]
    exact howes

/-- The group's side of an entry apart. -/
theorem Owes.group {e : Entry} {owner group : Side} {cursor? : Option Cursor}
    (h : Owes site t path c₀ c done (.entry e owner group cursor?) due n) :
    group.Fits site c₀ c (e.member "group") ∧ ∃ m, n = group.work + m ∧ ∀ {c' : Client} {side : Side},
      c.Grows c' → side.Fits site c₀ c' (e.member "group") →
        Owes site t path c₀ c' done (.entry e owner side cursor?) due (side.work + m) := by
  cases h with
  | @entry _ _ _ _ inside _ m hp hd howner hgroup ha =>
    refine ⟨hgroup, 1 + owner.work + inside.workUnder e + m, by omega, fun {c' side} hg hfits => ?_⟩
    have howes : Owes site t path c₀ c' done (.entry e owner side cursor?) _ _ :=
      .entry hp hd (howner.grow hg) hfits ha
    have hwork : side.work + (1 + owner.work + inside.workUnder e + m) =
        1 + owner.work + side.work + inside.workUnder e + m := by omega
    rw [hwork]
    exact howes

/-! ### What all tasks owe -/

/-- What some tasks owe together, in any order, and in how many turns. -/
def Outstanding (owes : Task → List Listed → ℕ → Prop) (tasks : List Task) (due : List Listed) (n : ℕ) :
    Prop :=
  ∃ parts : List (List Listed × ℕ), List.Forall₂ (fun task p => owes task p.1 p.2) tasks parts ∧
    due.Perm (parts.flatMap Prod.fst) ∧ n = (parts.map Prod.snd).sum

namespace Outstanding

variable {owes owes' : Task → List Listed → ℕ → Prop} {task : Task} {tasks tasks' : List Task}

theorem nil : Outstanding owes [] [] 0 := ⟨[], .nil, .refl _, rfl⟩

theorem of_nil (h : Outstanding owes [] due n) : due = [] := by
  obtain ⟨parts, hparts, hdue, -⟩ := h
  cases hparts
  exact hdue.eq_nil

theorem due_perm (h : Outstanding owes tasks due n) (hd : due'.Perm due) :
    Outstanding owes tasks due' n := by
  obtain ⟨parts, hparts, hdue, hn⟩ := h
  exact ⟨parts, hparts, hd.trans hdue, hn⟩

/-- The order of the tasks does not matter. -/
theorem perm (h : Outstanding owes tasks due n) (hp : tasks'.Perm tasks) :
    Outstanding owes tasks' due n := by
  obtain ⟨parts, hparts, hdue, rfl⟩ := h
  obtain ⟨parts', hparts', hperm⟩ := List.perm_comp_forall₂ hp hparts
  exact ⟨parts', hparts', hdue.trans (hperm.symm.flatMap_right _), (hperm.map Prod.snd).sum_eq.symm⟩

theorem cons (h : owes task due n) (hs : Outstanding owes tasks due' n') :
    Outstanding owes (task :: tasks) (due ++ due') (n + n') := by
  obtain ⟨parts, hparts, hdue, rfl⟩ := hs
  exact ⟨(due, n) :: parts, .cons h hparts, hdue.append_left due, rfl⟩

theorem singleton (h : owes task due n) : Outstanding owes [task] due n := by
  have hs := cons h nil
  rw [List.append_nil, Nat.add_zero] at hs
  exact hs

theorem uncons (h : Outstanding owes (task :: tasks) due n) :
    ∃ due₁ n₁ due₂ n₂, owes task due₁ n₁ ∧ Outstanding owes tasks due₂ n₂ ∧
      due.Perm (due₁ ++ due₂) ∧ n = n₁ + n₂ := by
  obtain ⟨parts, hparts, hdue, rfl⟩ := h
  cases hparts with
  | @cons _ p _ parts hp hrest =>
    exact ⟨p.1, p.2, parts.flatMap Prod.fst, (parts.map Prod.snd).sum, hp,
      ⟨parts, hrest, .refl _, rfl⟩, hdue, rfl⟩

theorem append (h : Outstanding owes tasks due n) (h' : Outstanding owes tasks' due' n') :
    Outstanding owes (tasks ++ tasks') (due ++ due') (n + n') := by
  obtain ⟨parts, hparts, hdue, rfl⟩ := h
  obtain ⟨parts', hparts', hdue', rfl⟩ := h'
  refine ⟨parts ++ parts', List.rel_append hparts hparts', ?_, ?_⟩
  · rw [List.flatMap_append]
    exact hdue.append hdue'
  · rw [List.map_append, List.sum_append]

theorem imp (h : Outstanding owes tasks due n)
    (hi : ∀ task due n, owes task due n → owes' task due n) : Outstanding owes' tasks due n := by
  obtain ⟨parts, hparts, hdue, hn⟩ := h
  exact ⟨parts, hparts.imp fun task p hp => hi task p.1 p.2 hp, hdue, hn⟩

/-- One task apart, and what the others owe. -/
theorem pick (h : Outstanding owes tasks due n) {i : ℕ} (hi : tasks[i]? = some task) :
    ∃ due₁ n₁ due₂ n₂, owes task due₁ n₁ ∧ Outstanding owes (tasks.eraseIdx i) due₂ n₂ ∧
      due.Perm (due₁ ++ due₂) ∧ n = n₁ + n₂ :=
  (h.perm (perm_cons_eraseIdx hi).symm).uncons

end Outstanding

/-! ### Reading on -/

/-- The directories that are still to be listed, as tasks. -/
theorem outstanding_branches (t : Tree) (path : String) (c₀ c : Client)
    {branches : List (String × Contents)} (h : ∀ b ∈ branches, Branch site done b) :
    Outstanding (Owes site t path c₀ c done)
      ((branches.map Prod.fst).map fun directory => Task.page directory none [])
      (dueOf branches) (workOf branches) := by
  induction branches with
  | nil => exact .nil
  | cons b rest ih =>
    have hb := h b List.mem_cons_self
    have howes : Owes site t path c₀ c done (.page b.1 none []) (b.2.due b.1) (1 + b.2.work) := by
      have hnone : ∀ b' ∈ ([] : List (String × Contents)), Branch site done b' := by simp
      have hpage : Owes site t path c₀ c done (.page b.1 none []) (b.2.due b.1 ++ dueOf [])
          (1 + b.2.work + workOf []) := .page hb.pages hb.served hb.met hnone
      simpa [dueOf, workOf] using hpage
    exact .cons howes (ih fun b' hb' => h b' (List.mem_cons_of_mem b hb'))

/-- An entry that has not asked for its names yet. -/
theorem owes_named (t : Tree) (path : String) (c₀ c : Client) {e : Entry} {cursor? : Option Cursor}
    {inside : Contents} (hp : ∃ p, e.path = .text p)
    (hd : e.kind.isDirectory = true → Pages site e.place none inside ∧ inside.ServedBy site)
    (ha : Ahead site done cursor? due n) :
    Owes site t path c₀ c done (Walk.named e cursor?)
      (⟨cursor?.map Cursor.directory, e⟩ :: (inside.under e ++ due)) (9 + inside.workUnder e + n) :=
  .entry hp hd rfl rfl ha

/-- Reading on in a page: what the cursor has before it is owed by new tasks. -/
theorem Ahead.readOn {cur : Cursor} (h : Ahead site done (some cur) due n) (t : Tree) (path : String)
    (c₀ c : Client) (verbose : Bool) (w : Walk) :
    ∃ remarks tasks, remarks.filterMap Event.visit? = [] ∧
      w.readOn verbose cur = { w with past := remarks ++ w.past, tasks := w.tasks ++ tasks } ∧
      Outstanding (Owes site t path c₀ c done) tasks due n := by
  cases h with
  | @page _ contents branches hitems hnext hserved hmet hb hbelow =>
    obtain ⟨hdue, hwork, hlater, hskip⟩ := contents.skip_spec site cur.directory
    obtain ⟨remarks, hnone, hcases⟩ := contents.nextEntry_skip verbose hitems
    have hsilent : remarks.reverse.filterMap Event.visit? = [] := by
      rw [List.filterMap_reverse, hnone, List.reverse_nil]
    rw [← hdue, ← hwork]
    rw [← hlater] at hnext
    have hserved := hskip hserved
    generalize contents.skip = contents at hcases hnext hserved
    rcases hcases with ⟨hpage, hn⟩ | ⟨e, inside, rest, items', rfl, he, hrest, hn⟩
    · cases contents with
      | nil =>
        -- The last page is done, and the directories that were met are listed next.
        have htoken : nextToken cur.page = .ok none := by
          cases hnext with
          | last htoken => exact htoken
        refine ⟨remarks.reverse, cur.below.map fun directory => .page directory none [], hsilent, ?_, ?_⟩
        · simp [Walk.readOn, hn, Walk.afterPage, htoken, Except.map, Walk.add]
        · rw [hbelow]
          simpa [Contents.work] using outstanding_branches t path c₀ c hb
      | nextPage rest =>
        obtain ⟨token, htoken, hpages⟩ :
            ∃ token, nextToken cur.page = .ok (some token) ∧ Pages site cur.directory (some token) rest := by
          cases hnext with
          | more htoken hpages => exact ⟨_, htoken, hpages⟩
        refine ⟨remarks.reverse, [.page cur.directory (some token) cur.below], hsilent, ?_, ?_⟩
        · simp [Walk.readOn, hn, Walk.afterPage, htoken, Except.map, Walk.add]
        · rw [hbelow]
          exact .singleton (.page hpages hserved hmet hb)
      | entry e inside rest => cases hpage
    · obtain ⟨hp, hd, hserved⟩ := hserved
      refine ⟨remarks.reverse, [Walk.named e (some { cur with rest := items' })], hsilent, ?_, ?_⟩
      · simp [Walk.readOn, hn, Walk.add]
      · have ha : Ahead site done (some { cur with rest := items' }) _ _ :=
          .page hrest hnext hserved hmet hb hbelow
        have howes := owes_named t path c₀ c hp hd ha
        have hwork : (Contents.entry e inside rest).work + workOf branches =
            9 + inside.workUnder e + (rest.work + workOf branches) := by
          simp only [Contents.work, Contents.workUnder, he, if_true]
          omega
        rw [Contents.due_entry he, hwork]
        refine Outstanding.due_perm (.singleton howes) ?_
        simp

/-- A directory that is met goes with those that are still to be listed. -/
theorem Ahead.meet {cur : Cursor} {b : String × Contents} (h : Ahead site done (some cur) due n)
    (hb : Branch site done b) :
    ∃ due', due'.Perm (b.2.due b.1 ++ due) ∧
      Ahead site done (some { cur with below := cur.below ++ [b.1] }) due' (1 + b.2.work + n) := by
  cases h with
  | @page _ contents branches hitems hnext hserved hmet hbs hbelow =>
    refine ⟨contents.due cur.directory ++ dueOf (branches ++ [b]), ?_, ?_⟩
    · have hdue : dueOf (branches ++ [b]) = dueOf branches ++ b.2.due b.1 := by simp [dueOf]
      rw [hdue, ← List.append_assoc]
      exact List.perm_append_comm
    · have hwork : 1 + b.2.work + (contents.work + workOf branches) =
          contents.work + workOf (branches ++ [b]) := by
        simp only [workOf, List.map_append, List.sum_append, List.map_singleton, List.sum_singleton]
        omega
      rw [hwork]
      refine .page hitems hnext hserved hmet ?_ ?_
      · intro b' hb'
        rcases List.mem_append.1 hb' with hb' | hb'
        · exact hbs b' hb'
        · rw [List.mem_singleton.1 hb']
          exact hb
      · rw [List.map_append, hbelow]
        rfl

/-- Going on after the visit of an entry: what the entry holds and what is ahead is owed by new tasks. -/
theorem Ahead.arrive {cursor? : Option Cursor} {e : Entry} {inside : Contents} {v : Visit}
    (ha : Ahead site done cursor? due n) (hpath : v.path = e.place) (hkind : v.node.kind = e.kind)
    (hd : e.kind.isDirectory = true → Branch site done (e.place, inside))
    (t : Tree) (path : String) (c₀ c : Client) (verbose : Bool) (w : Walk) :
    ∃ remarks tasks, remarks.filterMap Event.visit? = [] ∧
      w.arrive verbose v cursor? = { w with
        past := remarks ++ ((if e.kind.isCounted then [.visit v] else []) ++ w.past)
        tasks := w.tasks ++ tasks } ∧
      Outstanding (Owes site t path c₀ c done) tasks (inside.under e ++ due) (inside.workUnder e + n) := by
  -- The visit is recorded first; what happens then depends on the cursor.
  have hrecord : (if v.node.kind.isCounted then { w with past := .visit v :: w.past } else w) =
      { w with past := (if e.kind.isCounted then [.visit v] else []) ++ w.past } := by
    rw [hkind]
    split <;> rfl
  unfold Walk.arrive
  rw [hrecord, hkind, hpath]
  by_cases hdir : e.kind.isDirectory = true
  · have hunder : inside.under e = inside.due e.place := if_pos hdir
    have hwork : inside.workUnder e = 1 + inside.work := if_pos hdir
    rw [hunder, hwork, hdir]
    cases ha with
    | root =>
      have hb : ∀ b ∈ [(e.place, inside)], Branch site done b := by
        intro b hb
        rw [List.mem_singleton.1 hb]
        exact hd hdir
      refine ⟨[], [.page e.place none []], rfl, rfl, ?_⟩
      simpa [dueOf, workOf] using outstanding_branches t path c₀ c hb
    | page hitems hnext hserved hmet hb hbelow =>
      obtain ⟨due', hdue, ha'⟩ := (Ahead.page hitems hnext hserved hmet hb hbelow).meet (hd hdir)
      obtain ⟨remarks, tasks, hsilent, hread, hout⟩ := ha'.readOn t path c₀ c verbose _
      exact ⟨remarks, tasks, hsilent, hread, hout.due_perm hdue.symm⟩
  · have hdir : e.kind.isDirectory = false := by simpa using hdir
    have hunder : inside.under e = [] := by simp [Contents.under, hdir]
    have hwork : inside.workUnder e = 0 := by simp [Contents.workUnder, hdir]
    rw [hunder, hwork, hdir, List.nil_append, Nat.zero_add]
    cases ha with
    | root => exact ⟨[], [], rfl, by simp, .nil⟩
    | page hitems hnext hserved hmet hb hbelow =>
      exact (Ahead.page hitems hnext hserved hmet hb hbelow).readOn t path c₀ c verbose _

end UsageLedger.Cluster
