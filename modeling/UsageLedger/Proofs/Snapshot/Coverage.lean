/-
UsageLedger/Proofs/Snapshot/Coverage.lean

A visit of a snapshot meets everything at or below its root, each path once.

The workers of a level may be done in any order and at the same time, so what
reaches the sink is fixed only up to the order within a level.  `Sweep` says what
may come from a level on; `visitsBelow` is one such sweep (`sweep_visitsBelow`),
so the levels come to an end, and every sweep meets exactly the recorded paths
strictly below its first level (`Sweep.mem_iff`), none of them twice
(`Sweep.nodup`).

Both facts rest on the index alone: a known path below a directory lies within
one of its children (`exists_held`), and a recorded path above it is a directory
(`mayHold_of_known`), since a tree has nothing below a file or a link.
-/
import Mathlib.Data.List.Fold
import Mathlib.Data.List.MinMax
import Mathlib.Data.List.Nodup
import UsageLedger.Proofs.Snapshot.Faults
import UsageLedger.Proofs.Snapshot.Index
import UsageLedger.Proofs.Snapshot.Loading
import UsageLedger.Snapshot.Visit

namespace UsageLedger.Snapshot

namespace Tree

variable {t : Tree} {p q r : Path} {level : List Path} {v : Visit} {visits : List Visit}

/-! ### Known paths in a tree -/

/-- The paths recorded in a tree, and the directories that they imply. -/
abbrev Knows (t : Tree) (q : Path) : Prop := Known t.nodes.keys q

theorem knows_of_visit? (h : t.visit? q = some v) : t.Knows q := by
  obtain ⟨node, hn, _⟩ := Option.map_eq_some_iff.1 h
  exact ⟨q, (Catalog.find?_isSome_iff q t.nodes).1 (by simp [hn]), .refl q⟩

theorem path_of_visit? (h : t.visit? q = some v) : v.path = q.text := by
  obtain ⟨node, _, rfl⟩ := Option.map_eq_some_iff.1 h
  rfl

theorem mem_childrenOf : q ∈ t.index.childrenOf p ↔ q ≠ .root ∧ q.parent = p ∧ t.Knows q := by
  rw [t.index_eq, Index.mem_childrenOf_ofPaths]

/-- Below a directory each known path lies within something that the directory holds. -/
theorem exists_held (hq : t.Knows q) (hqp : q.Within p) (hne : q ≠ p) :
    ∃ c ∈ t.index.childrenOf p, q.Within c := by
  obtain ⟨c, hr, hp, hw⟩ := Path.exists_child hqp hne
  exact ⟨c, mem_childrenOf.2 ⟨hr, hp, hq.within hw⟩, hw⟩

/-- What has a known path below it is a directory if it is recorded. -/
theorem mayHold_of_known (hq : t.Knows q) (hqp : q.Within p) (hne : q ≠ p) : t.mayHold p = true := by
  obtain ⟨c, hc, _⟩ := exists_held hq hqp hne
  obtain ⟨held, hf⟩ : ∃ held, t.index.find? p = some held := by
    cases hf : t.index.find? p with
    | none => simp [Index.childrenOf, hf] at hc
    | some held => exact ⟨held, rfl⟩
  have hh : held ≠ [] := fun he => by simp [Index.childrenOf, hf, he] at hc
  -- A tree has no directory list under a file or a link: that is checked when it is made.
  obtain ⟨first, rest, rfl⟩ := List.exists_cons_of_ne_nil hh
  have hm := List.findSome?_eq_none_iff.1 t.misplaced_eq _ (Catalog.mem_of_find? hf)
  unfold mayHold
  cases hn : t.nodes.find? p with
  | none => rfl
  | some node => simpa [hn] using hm

theorem contains_iff : t.contains p = true ↔ t.Knows p := by
  have hi : t.index.has p = true ↔ ∃ q, q ≠ .root ∧ q.parent = p ∧ t.Knows q := by
    rw [t.index_eq, Index.has_ofPaths_iff]
  rw [contains, Bool.or_eq_true, hi, Catalog.has, Catalog.find?_isSome_iff]
  constructor
  · rintro (hp | ⟨q, _, rfl, hq⟩)
    · exact ⟨p, hp, .refl p⟩
    · exact hq.within (Path.within_parent q)
  · rintro ⟨q, hq, hw⟩
    -- Recorded itself, or implied by a child on the way to what is recorded.
    by_cases hqp : q = p
    · exact .inl (hqp ▸ hq)
    · obtain ⟨c, hc, _⟩ := exists_held ⟨q, hq, .refl q⟩ hw hqp
      exact .inr ⟨c, mem_childrenOf.1 hc⟩

/-! ### Levels -/

theorem mem_held : q ∈ t.held level ↔ q.parent ∈ level ∧ q ≠ .root ∧ t.Knows q := by
  simp only [held, List.mem_flatMap, mem_childrenOf]
  constructor
  · rintro ⟨d, hd, hq, rfl, hk⟩
    exact ⟨hd, hq, hk⟩
  · rintro ⟨hd, hq, hk⟩
    exact ⟨q.parent, hd, hq, rfl, hk⟩

theorem nodup_held (h : level.Nodup) : (t.held level).Nodup := by
  refine List.nodup_flatMap.2 ⟨fun d _ => ?_, h.imp ?_⟩
  · rw [t.index_eq]
    exact (Index.sound_ofPaths _).nodup d
  · -- Different directories hold different paths.
    intro d d' hne q hq hq'
    exact hne ((mem_childrenOf.1 hq).2.1.symm.trans (mem_childrenOf.1 hq').2.1)

/-- The directories among what a level holds. -/
def nextLevel (t : Tree) (level : List Path) : List Path := (t.held level).filter t.mayHold

/-- Every path of a level has the same number of names. -/
def AtDepth (level : List Path) (n : ℕ) : Prop := ∀ p ∈ level, p.names.length = n

theorem AtDepth.held {n : ℕ} (h : AtDepth level n) : AtDepth (t.held level) (n + 1) := by
  intro q hq
  obtain ⟨hd, hr, _⟩ := mem_held.1 hq
  have := h _ hd
  have := Path.length_parent_add_one hr
  omega

theorem AtDepth.nextLevel {n : ℕ} (h : AtDepth level n) : AtDepth (t.nextLevel level) (n + 1) :=
  fun q hq => h.held (t := t) q (List.mem_filter.1 hq).1

/-! ### Sweeps -/

/-- What may reach a sink from a level on: first, in any order, the recorded paths that the level
holds, then what comes from the next level on. -/
inductive Sweep (t : Tree) : List Path → List Visit → Prop
  | done : Sweep t [] []
  | level {level : List Path} {now later : List Visit} :
      level ≠ [] → now.Perm ((t.held level).filterMap t.visit?) →
      Sweep t (t.nextLevel level) later → Sweep t level (now ++ later)

/-- A sweep meets exactly the recorded paths strictly below its first level. -/
theorem Sweep.mem_iff (h : t.Sweep level visits) :
    v ∈ visits ↔ ∃ p ∈ level, ∃ q, q.Within p ∧ q ≠ p ∧ t.visit? q = some v := by
  induction h with
  | done => simp
  | @level level now later _ hnow _ ih =>
    rw [List.mem_append, hnow.mem_iff, ih, List.mem_filterMap]
    constructor
    · -- What is met lies below the parent of what led to it, which is in the level.
      rintro (⟨q, hq, hv⟩ | ⟨c, hc, q, hw, hne, hv⟩)
      · obtain ⟨hd, hr, _⟩ := mem_held.1 hq
        have := Path.length_parent_add_one hr
        refine ⟨q.parent, hd, q, Path.within_parent q, fun he => ?_, hv⟩
        have := congrArg (fun p => p.names.length) he
        omega
      · obtain ⟨hd, hr, _⟩ := mem_held.1 (List.mem_filter.1 hc).1
        have := Path.length_parent_add_one hr
        have := hw.length_le
        refine ⟨c.parent, hd, q, hw.trans (Path.within_parent c), fun he => ?_, hv⟩
        have := congrArg (fun p => p.names.length) he
        omega
    · -- What lies below the level is one of the things held, or lies below one.
      rintro ⟨p, hp, q, hw, hne, hv⟩
      have hk := knows_of_visit? hv
      obtain ⟨c, hc, hqc⟩ := exists_held hk hw hne
      have hc : c ∈ t.held level := List.mem_flatMap.2 ⟨p, hp, hc⟩
      by_cases he : q = c
      · exact .inl ⟨q, he ▸ hc, hv⟩
      · exact .inr ⟨c, List.mem_filter.2 ⟨hc, mayHold_of_known hk hqc he⟩, q, hqc, he, hv⟩

theorem Sweep.nodup {n : ℕ} (h : t.Sweep level visits) (hl : level.Nodup) (hn : AtDepth level n) :
    visits.Nodup := by
  induction h generalizing n with
  | done => exact .nil
  | @level level now later _ hnow hlater ih =>
    have hh : (t.held level).Nodup := nodup_held hl
    refine List.nodup_append.2 ⟨?_, ih (hh.filter _) hn.nextLevel, ?_⟩
    · refine hnow.nodup_iff.2 (hh.filterMap ?_)
      intro q q' v hq hq'
      exact Path.text_injective ((path_of_visit? hq).symm.trans (path_of_visit? hq'))
    · -- A later visit has a longer path.
      rintro v hv w hw rfl
      obtain ⟨q, hq, hv⟩ := List.mem_filterMap.1 (hnow.mem_iff.1 hv)
      obtain ⟨c, hc, q', hqc, hne, hv'⟩ := hlater.mem_iff.1 hw
      have hqq : q = q' := Path.text_injective ((path_of_visit? hv).symm.trans (path_of_visit? hv'))
      have := hn.held q hq
      have := hn.nextLevel c hc
      have := hqc.length_lt hne
      rw [hqq] at *
      omega

/-! ### The levels come to an end -/

theorem le_depth (h : t.Knows q) : q.names.length ≤ t.depth := by
  obtain ⟨p, hp, hw⟩ := h
  refine hw.length_le.trans ?_
  rw [depth, List.foldl_eq_foldr]
  exact List.le_max_of_le' 0 (List.mem_map_of_mem hp) le_rfl

/-- Where a level holds nothing, nothing more comes. -/
theorem Sweep.of_held_eq_nil (h : t.held level = []) : t.Sweep level [] := by
  cases level with
  | nil => exact .done
  | cons p rest =>
    have hnext : t.nextLevel (p :: rest) = [] := by rw [nextLevel, h, List.filter_nil]
    have hlater : t.Sweep (t.nextLevel (p :: rest)) [] := hnext ▸ .done
    exact .level (List.cons_ne_nil p rest) (by rw [h, List.filterMap_nil]) hlater

/-- As many levels as the longest path has names are enough. -/
theorem sweep_visitsBelow {n d : ℕ} (hn : AtDepth level n) (hd : t.depth ≤ n + d) :
    t.Sweep level (t.visitsBelow d level) := by
  induction d generalizing level n with
  | zero =>
    -- What the level holds would have more names than the longest path.
    refine .of_held_eq_nil (List.eq_nil_iff_forall_not_mem.2 fun q hq => ?_)
    have := le_depth (mem_held.1 hq).2.2
    have := hn.held q hq
    omega
  | succ d ih =>
    unfold visitsBelow
    by_cases he : (t.held level).isEmpty
    · rw [if_pos he]
      exact .of_held_eq_nil (List.isEmpty_iff.1 he)
    · rw [if_neg he]
      refine .level ?_ (.refl _) (ih hn.nextLevel (by omega))
      rintro rfl
      exact he rfl

/-! ### Coverage -/

/-- What may reach a sink when a tree is visited from a path on: the path itself if it is recorded,
and a sweep below it unless it is a file or a link. -/
def Delivers (t : Tree) (root : Path) (visits : List Visit) : Prop :=
  ∃ below, visits = (t.visit? root).toList ++ below ∧
    if t.mayHold root then t.Sweep [root] below else below = []

/-- The visits of the recorded paths at or below a path. -/
def recordedWithin (t : Tree) (root : Path) : List Visit :=
  (t.nodes.filter fun e => e.1.Within root).map fun e => ⟨e.1.text, e.2⟩

theorem mem_recordedWithin (ht : t.nodes.Loadable) :
    v ∈ t.recordedWithin r ↔ ∃ q, q.Within r ∧ t.visit? q = some v := by
  simp only [recordedWithin, visit?, List.mem_map, List.mem_filter, decide_eq_true_eq,
    Option.map_eq_some_iff]
  constructor
  · rintro ⟨⟨q, node⟩, ⟨hq, hw⟩, rfl⟩
    exact ⟨q, hw, node, Catalog.find?_of_mem ht.nodup hq, rfl⟩
  · rintro ⟨q, hw, node, hq, rfl⟩
    exact ⟨(q, node), ⟨Catalog.mem_of_find? hq, hw⟩, rfl⟩

theorem nodup_recordedWithin (ht : t.nodes.Loadable) (r : Path) : (t.recordedWithin r).Nodup := by
  refine List.Nodup.of_map (·.path) ?_
  have hk : ((t.nodes.filter fun e => e.1.Within r).map (·.1)).Nodup :=
    ht.nodup.sublist (List.filter_sublist.map _)
  simpa [recordedWithin, Function.comp_def] using hk.map Path.text_injective

theorem sound_recordedWithin (hs : t.nodes.Sound) (r : Path) : ∀ v ∈ t.recordedWithin r, v.node.Sound := by
  intro v hv
  obtain ⟨e, he, rfl⟩ := List.mem_map.1 hv
  exact hs e.2 (List.mem_map_of_mem (List.mem_filter.1 he).1)

/-- What is met below the root is what is recorded strictly below it. -/
theorem mem_below {below : List Visit}
    (h : if t.mayHold r then t.Sweep [r] below else below = []) :
    v ∈ below ↔ ∃ q, q.Within r ∧ q ≠ r ∧ t.visit? q = some v := by
  split at h
  · simpa using h.mem_iff (v := v)
  · rename_i hh
    subst h
    refine ⟨fun hv => absurd hv List.not_mem_nil, ?_⟩
    rintro ⟨q, hw, hne, hv⟩
    exact absurd (mayHold_of_known (knows_of_visit? hv) hw hne) hh

/-- Whatever the order within the levels, each recorded path at or below the root is met once. -/
theorem Delivers.perm (ht : t.nodes.Loadable) (h : t.Delivers r visits) :
    visits.Perm (t.recordedWithin r) := by
  obtain ⟨below, rfl, hb⟩ := h
  have hnodup : below.Nodup := by
    split at hb
    · exact hb.nodup (List.nodup_singleton r) (n := r.names.length) (by simp [AtDepth])
    · exact hb ▸ .nil
  -- Neither list has anything twice, so it is enough to compare their members.
  refine (List.perm_ext_iff_of_nodup ?_ (nodup_recordedWithin ht r)).2 fun v => ?_
  · refine List.nodup_append.2 ⟨?_, hnodup, ?_⟩
    · cases t.visit? r <;> simp
    · rintro v hv w hw rfl
      obtain ⟨q, _, hne, hq⟩ := (mem_below hb).1 hw
      refine hne (Path.text_injective ?_)
      rw [← path_of_visit? hq, ← path_of_visit? (Option.mem_toList.1 hv)]
  · rw [List.mem_append, Option.mem_toList, mem_below hb, mem_recordedWithin ht]
    constructor
    · rintro (hv | ⟨q, hw, _, hv⟩)
      · exact ⟨r, .refl r, hv⟩
      · exact ⟨q, hw, hv⟩
    · rintro ⟨q, hw, hv⟩
      by_cases he : q = r
      · exact .inl (he ▸ hv)
      · exact .inr ⟨q, hw, he, hv⟩

/-- Every recorded path has a node that calls back. -/
theorem callbacks_eq (ht : t.nodes.Loadable) (h : t.Delivers r visits) : callbacks visits = visits := by
  refine List.filter_eq_self.2 fun v hv => ?_
  obtain ⟨q, _, hq⟩ := (mem_recordedWithin ht).1 ((h.perm ht).mem_iff.1 hv)
  obtain ⟨node, hn, rfl⟩ := Option.map_eq_some_iff.1 hq
  exact ht.counted hn

/-- A visit of a known path goes through, whatever the number of workers. -/
theorem visit_of_knows {workers : Int} (hw : 1 ≤ workers) {given : String}
    (hk : t.Knows (.ofText given)) :
    (t.visit workers given).fault = none ∧
      t.Delivers (.ofText given) (t.visit workers given).visits := by
  have hworkers : ¬ workers < 1 := by omega
  have hdepth : AtDepth [Path.ofText given] (Path.ofText given).names.length := by simp [AtDepth]
  have hsweep := sweep_visitsBelow (t := t) (d := t.depth) hdepth (by omega)
  simp only [visit, contains_iff.2 hk, Bool.not_true, Bool.false_eq_true, if_false, hworkers]
  split
  · rename_i hh
    refine ⟨rfl, [], by simp, ?_⟩
    rw [if_neg (by simpa using hh)]
  · rename_i hh
    refine ⟨rfl, _, Traversal.visits_ofVisits _, ?_⟩
    rw [if_pos (by simpa using hh)]
    exact hsweep

/-- A visit that goes through is one of a known path, and it is complete. -/
theorem delivers_of_fault {workers : Int} {given : String} (h : (t.visit workers given).fault = none) :
    t.Delivers (.ofText given) (t.visit workers given).visits := by
  have hk : t.Knows (.ofText given) := by
    rw [← contains_iff]
    by_contra hc
    have hc : t.contains (.ofText given) = false := Bool.eq_false_of_not_eq_true hc
    simp [visit, hc, Traversal.failed] at h
  by_cases hw : 1 ≤ workers
  · exact (visit_of_knows hw hk).2
  · -- Without workers only a file or a link can be visited, and that takes none.
    have hsame : t.visit workers given = t.visit 1 given := by
      have hnone : workers < 1 := by omega
      have hc := contains_iff.2 hk
      cases hh : t.mayHold (.ofText given) with
      | false => simp [visit, hc, hh]
      | true => simp [visit, hc, hh, hnone] at h
    rw [hsame]
    exact (visit_of_knows le_rfl hk).2

/-- **A visit is complete and exact.**  A root that is neither recorded nor above a recorded path is
not found, and nothing is called back.  Any other visit ends without a fault, and in whatever order
the workers do a level, the callbacks are those of the recorded paths at or below the root, each
once. -/
theorem visit_exact (ht : t.nodes.Loadable) {workers : Int} (hw : 1 ≤ workers) (given : String) :
    (¬ t.Knows (.ofText given) →
      t.visit workers given = .failed (.snapshot (.notFound given))) ∧
    (t.Knows (.ofText given) →
      (t.visit workers given).fault = none ∧
      t.Delivers (.ofText given) (t.visit workers given).visits ∧
      ∀ visits, t.Delivers (.ofText given) visits →
        (callbacks visits).Perm (t.recordedWithin (.ofText given))) := by
  constructor
  · intro hk
    have hc : t.contains (.ofText given) = false := by
      rw [← Bool.not_eq_true, contains_iff]
      exact hk
    simp [visit, hc]
  · intro hk
    obtain ⟨hf, hd⟩ := visit_of_knows hw hk
    refine ⟨hf, hd, fun visits hv => ?_⟩
    rw [callbacks_eq ht hv]
    exact hv.perm ht

/-- The nodes of a file in a directory that is only implied, of a link, and of a directory whose name
begins like that of another one. -/
def homeNodes : Nodes :=
  [ (.ofText "/home/ann/a", ⟨.file, .text "a", .text "ann", .null, 7, 1⟩),
    (.ofText "/home2", ⟨.directory, .text "home2", .null, .null, 0, 0⟩),
    (.ofText "/home/b", ⟨.symlink, .text "b", .null, .null, 0, 0⟩) ]

/-- The tree of these nodes. -/
def home : Tree := ⟨homeNodes, .ofPaths homeNodes.keys, rfl, by decide +kernel⟩

theorem visit_exact_home :
    home.nodes.Loadable ∧ (1 : Int) ≤ 4 ∧ home.Knows (.ofText "/home/") ∧
      (home.visit 4 "/home/").fault = none ∧
      ((callbacks (home.visit 4 "/home/").visits).map (·.path)).Perm ["/home/ann/a", "/home/b"] := by
  have hl : home.nodes.Loadable := by
    refine ⟨by decide +kernel, fun {p node} hp => ?_⟩
    have hc : ∀ e ∈ homeNodes, e.2.kind.isCounted = true := by simp [homeNodes, NodeKind.isCounted]
    exact hc _ (Catalog.mem_of_find? hp)
  have hk : home.Knows (.ofText "/home/") := ⟨.ofText "/home/b", by decide +kernel, by decide +kernel⟩
  obtain ⟨hf, hd, hp⟩ := (visit_exact hl (by decide : (1 : Int) ≤ 4) "/home/").2 hk
  have hr : (home.recordedWithin (.ofText "/home/")).map (·.path) = ["/home/ann/a", "/home/b"] := by
    decide +kernel
  exact ⟨hl, by decide, hk, hf, hr ▸ (hp _ hd).map _⟩

end Tree

end UsageLedger.Snapshot
