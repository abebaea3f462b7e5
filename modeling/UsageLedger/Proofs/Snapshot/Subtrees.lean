/-
UsageLedger/Proofs/Snapshot/Subtrees.lean

The report of a directory, from those of its children.  What is recorded at or below a
directory is its own entry and, child by child, what is recorded at or below the child:
every path below the directory lies within one child, and no path lies within two
(`recordedWithin_perm`).

A report sees a visit only through the sums of shares, so the sums of the children add
up to that of the directory, for the total, each group and each user alike.  The three
are the accounts of a report; a key that a report lacks shows nothing in it
(`Report.Accounts.figure_usageOf`).
-/
import UsageLedger.Proofs.Report.Order
import UsageLedger.Proofs.Snapshot.Coverage

namespace UsageLedger

variable {b : Borders} {visits : List Visit}

/-! ### Accounts -/

/-- What a report shows figures for: everything, a group, or a user. -/
inductive Account
  | overall
  | group (key : String)
  | user (key : String)

/-- Whether a visit counts for an account. -/
def Account.covers (a : Account) (v : Visit) : Bool :=
  match a with
  | overall => true
  | group key => v.groupKey = key
  | user key => v.userKey = key

namespace Report

/-- What a report shows for an account; under a key that is missing there is nothing. -/
def usageOf (r : Report b) : Account → Usage b
  | .overall => r.overall
  | .group key => (r.groups.find? key).getD (.zero b)
  | .user key => (r.users.find? key).getD (.zero b)

/-- Each account shows the sums over the visits that it covers. -/
theorem Accounts.figure_usageOf {r : Report b} (h : r.Accounts visits) (a : Account) (f : Figure) :
    (r.usageOf a).figure f = f.total b (visits.filter a.covers) := by
  cases a with
  | overall =>
    have hall : visits.filter (Account.covers .overall) = visits :=
      List.filter_eq_self.2 fun _ _ => rfl
    rw [hall]
    exact h.overall f
  | group key => exact h.groups.figure_getD key f
  | user key => exact h.users.figure_getD key f

end Report

/-- What one directory adds to a figure. -/
def Figure.oneDirectory : Figure → ℤ
  | directories => 1
  | _ => 0

theorem Figure.share_of_isDirectory (f : Figure) {n : Node} (h : n.kind.isDirectory = true) :
    f.share b n = f.oneDirectory := by
  unfold share
  cases hk : n.kind with
  | directory => cases f <;> rfl
  | _ => simp [hk, NodeKind.isDirectory] at h

/-- The sum over visits that come in parts is the sum over the parts. -/
theorem Figure.total_flatMap {α : Type} (f : Figure) (parts : List α) (visitsOf : α → List Visit) :
    f.total b (parts.flatMap visitsOf) = (parts.map fun p => f.total b (visitsOf p)).sum := by
  induction parts with
  | nil => rfl
  | cons p rest ih => rw [List.flatMap_cons, total_append, ih, List.map_cons, List.sum_cons]

namespace Snapshot.Tree

variable {t : Tree} {c d : Path}

/-! ### Parts of a directory -/

/-- A directory of a tree: recorded as one, or not recorded and implied by what lies below it. -/
def HasDirectory (t : Tree) (d : Path) : Prop :=
  (∃ node, t.nodes.find? d = some node ∧ node.kind.isDirectory = true) ∨
    t.nodes.find? d = none ∧ t.Knows d

theorem HasDirectory.knows (h : t.HasDirectory d) : t.Knows d := by
  rcases h with ⟨node, hn, _⟩ | ⟨_, hk⟩
  · exact ⟨d, (Catalog.find?_isSome_iff d t.nodes).1 (by simp [hn]), .refl d⟩
  · exact hk

/-- Nothing lies within two children of a directory. -/
theorem disjoint_recordedWithin (ht : t.nodes.Loadable) {c' : Path} (hc : c ∈ t.index.childrenOf d)
    (hc' : c' ∈ t.index.childrenOf d) (hne : c ≠ c') :
    (t.recordedWithin c).Disjoint (t.recordedWithin c') := by
  intro v hv hv'
  obtain ⟨q, hqc, hq⟩ := (mem_recordedWithin ht).1 hv
  obtain ⟨q', hqc', hq'⟩ := (mem_recordedWithin ht).1 hv'
  obtain rfl : q = q' := Path.text_injective ((path_of_visit? hq).symm.trans (path_of_visit? hq'))
  obtain ⟨hr, hp, _⟩ := mem_childrenOf.1 hc
  obtain ⟨hr', hp', _⟩ := mem_childrenOf.1 hc'
  -- Both children have one name more than the directory.
  have hl := Path.length_parent_add_one hr
  have hl' := Path.length_parent_add_one hr'
  rw [hp] at hl
  rw [hp'] at hl'
  exact hne (hqc.eq_of_within hqc' (hl.symm.trans hl'))

/-- **What a directory is made of.**  The visits at or below it are its own, if it is recorded, and
those at or below its children. -/
theorem recordedWithin_perm (ht : t.nodes.Loadable) (d : Path) :
    (t.recordedWithin d).Perm
      ((t.visit? d).toList ++ (t.index.childrenOf d).flatMap t.recordedWithin) := by
  have below {v : Visit} : v ∈ (t.index.childrenOf d).flatMap t.recordedWithin ↔
      ∃ q, q.Within d ∧ q ≠ d ∧ t.visit? q = some v := by
    simp only [List.mem_flatMap, mem_recordedWithin ht]
    constructor
    · rintro ⟨c, hc, q, hqc, hq⟩
      obtain ⟨hr, rfl, _⟩ := mem_childrenOf.1 hc
      refine ⟨q, hqc.trans (Path.within_parent c), ?_, hq⟩
      rintro rfl
      have := hqc.length_le
      have := Path.length_parent_add_one hr
      omega
    · rintro ⟨q, hqd, hne, hq⟩
      obtain ⟨c, hc, hqc⟩ := exists_held (knows_of_visit? hq) hqd hne
      exact ⟨c, hc, q, hqc, hq⟩
  have hparts : ((t.index.childrenOf d).flatMap t.recordedWithin).Nodup := by
    refine List.nodup_flatMap.2 ⟨fun c _ => nodup_recordedWithin ht c, ?_⟩
    have hchildren : (t.index.childrenOf d).Nodup := by
      rw [t.index_eq]
      exact (Index.sound_ofPaths _).nodup d
    exact hchildren.imp_of_mem fun hc hc' hne => disjoint_recordedWithin ht hc hc' hne
  -- Neither side has anything twice, so it is enough to compare their members.
  refine (List.perm_ext_iff_of_nodup (nodup_recordedWithin ht d) ?_).2 fun v => ?_
  · refine List.nodup_append.2 ⟨?_, hparts, ?_⟩
    · cases t.visit? d <;> simp
    · rintro v hv w hw rfl
      obtain ⟨q, _, hne, hq⟩ := below.1 hw
      refine hne (Path.text_injective ?_)
      rw [← path_of_visit? hq, ← path_of_visit? (Option.mem_toList.1 hv)]
  · rw [List.mem_append, Option.mem_toList, below, mem_recordedWithin ht]
    constructor
    · rintro ⟨q, hqd, hq⟩
      by_cases hne : q = d
      · exact .inl (hne ▸ hq)
      · exact .inr ⟨q, hqd, hne, hq⟩
    · rintro (hq | ⟨q, hqd, _, hq⟩)
      · exact ⟨d, .refl d, hq⟩
      · exact ⟨q, hqd, hq⟩

/-! ### Reports of a tree -/

/-- The report of what lies at or below a path. -/
def report (t : Tree) (s : ReportSettings) (b : Borders) (workers : ℤ) (given : String) :
    Except Fault (Report b) :=
  (s.report b given (t.visit workers given)).2

/-- What the entry of a directory adds to an account: one directory if it is recorded and the account
covers it. -/
def ownShare (t : Tree) (d : Path) (a : Account) (f : Figure) : ℤ :=
  if (t.visit? d).any a.covers then f.oneDirectory else 0

/-- The entry of a directory adds its own share and nothing else. -/
theorem total_visit? (h : t.HasDirectory d) (a : Account) (f : Figure) :
    f.total b ((t.visit? d).toList.filter a.covers) = t.ownShare d a f := by
  unfold ownShare
  rcases h with ⟨node, hn, hdir⟩ | ⟨hn, _⟩
  · have hv : t.visit? d = some ⟨d.text, node⟩ := by simp [visit?, hn]
    rw [hv, Option.toList_some, Option.any_some]
    split
    · rename_i hc
      rw [List.filter_cons_of_pos hc, List.filter_nil, Figure.total_singleton,
        Figure.share_of_isDirectory f hdir]
    · rename_i hc
      rw [List.filter_cons_of_neg hc, List.filter_nil, Figure.total_nil]
  · have hv : t.visit? d = none := by simp [visit?, hn]
    rw [hv]
    rfl

/-- Without progress and remarks every known path has a report. -/
theorem exists_report_of_knows {workers : ℤ} (hw : 1 ≤ workers) (b : Borders) (timing : Timing)
    {given : String} (hk : t.Knows (.ofText given)) :
    ∃ r, t.report ⟨0, timing, false⟩ b workers given = .ok r :=
  ⟨_, ReportSettings.report_quiet b given timing (visit_of_knows hw hk).1⟩

/-- The accounts of a report show the sums over what is recorded at or below its path. -/
theorem figure_of_report (ht : t.nodes.Loadable) {s : ReportSettings} {workers : ℤ} {given : String}
    {r : Report b} (h : t.report s b workers given = .ok r) (a : Account) (f : Figure) :
    (r.usageOf a).figure f = f.total b ((t.recordedWithin (.ofText given)).filter a.covers) := by
  have hd := delivers_of_fault (ReportSettings.fault_of_report h)
  have haccounts := Report.accounts_ofVisits b given (t.visit workers given).visits
  rw [callbacks_eq ht hd] at haccounts
  rw [ReportSettings.eq_of_report h, haccounts.figure_usageOf]
  exact (((hd.perm ht).filter _).map _).sum_eq

/-- **Subtree additivity.**  A directory and each of its children have a report, and in every account
the report of the directory shows, figure by figure, what its own entry adds and what the reports of
its children show together. -/
theorem report_additive (ht : t.nodes.Loadable) {workers : ℤ} (hw : 1 ≤ workers) {given : String}
    (hd : t.HasDirectory (.ofText given)) (b : Borders) :
    (∀ timing, ∃ r, t.report ⟨0, timing, false⟩ b workers given = .ok r) ∧
    (∀ c ∈ t.index.childrenOf (.ofText given), ∀ timing,
      ∃ r, t.report ⟨0, timing, false⟩ b workers c.text = .ok r) ∧
    ∀ {s : ReportSettings} {r : Report b} {s' : Path → ReportSettings} {parts : Path → Report b},
      t.report s b workers given = .ok r →
      (∀ c ∈ t.index.childrenOf (.ofText given), t.report (s' c) b workers c.text = .ok (parts c)) →
      ∀ (a : Account) (f : Figure),
        (r.usageOf a).figure f = t.ownShare (.ofText given) a f +
          ((t.index.childrenOf (.ofText given)).map fun c => ((parts c).usageOf a).figure f).sum := by
  refine ⟨fun timing => exists_report_of_knows hw b timing hd.knows, fun c hc timing => ?_, ?_⟩
  · refine exists_report_of_knows hw b timing ?_
    rw [Path.ofText_text]
    exact (mem_childrenOf.1 hc).2.2
  · intro s r s' parts hr hparts a f
    have hchild : ∀ c ∈ t.index.childrenOf (.ofText given),
        ((parts c).usageOf a).figure f = f.total b ((t.recordedWithin c).filter a.covers) := by
      intro c hc
      rw [figure_of_report ht (hparts c hc), Path.ofText_text]
    calc (r.usageOf a).figure f
        = f.total b ((t.recordedWithin (.ofText given)).filter a.covers) := figure_of_report ht hr a f
      _ = f.total b (((t.visit? (.ofText given)).toList ++
            (t.index.childrenOf (.ofText given)).flatMap t.recordedWithin).filter a.covers) :=
          (((recordedWithin_perm ht _).filter _).map _).sum_eq
      _ = t.ownShare (.ofText given) a f + ((t.index.childrenOf (.ofText given)).map fun c =>
            f.total b ((t.recordedWithin c).filter a.covers)).sum := by
          rw [List.filter_append, Figure.total_append, total_visit? hd, List.filter_flatMap,
            Figure.total_flatMap]
      _ = _ := by rw [List.map_congr_left hchild]

/-- The nodes of a directory, of a file in it, and of a file in a directory that is only implied. -/
def deskNodes : Nodes :=
  [ (.ofText "/d", ⟨.directory, .text "d", .text "ann", .null, 0, 0⟩),
    (.ofText "/d/a", ⟨.file, .text "a", .text "ann", .null, 7, 1⟩),
    (.ofText "/d/s/x", ⟨.file, .text "x", .text "ben", .text "eng", 5, 1⟩) ]

/-- The tree of these nodes. -/
def desk : Tree := ⟨deskNodes, .ofPaths deskNodes.keys, rfl, by decide +kernel⟩

theorem report_additive_desk :
    desk.nodes.Loadable ∧ (1 : ℤ) ≤ 4 ∧ desk.HasDirectory (.ofText "/d/") ∧
      ∃ r file implied : Report .standard,
        desk.report ⟨0, .still (.whole 0), false⟩ .standard 4 "/d/" = .ok r ∧
        desk.report ⟨0, .still (.whole 0), false⟩ .standard 4 "/d/a" = .ok file ∧
        desk.report ⟨0, .still (.whole 0), false⟩ .standard 4 "/d/s" = .ok implied ∧
        ∀ (a : Account) (f : Figure), (r.usageOf a).figure f =
          desk.ownShare (.ofText "/d/") a f +
            ((file.usageOf a).figure f + ((implied.usageOf a).figure f + 0)) := by
  have hl : desk.nodes.Loadable := by
    refine ⟨by decide +kernel, fun {p node} hp => ?_⟩
    have hc : ∀ e ∈ deskNodes, e.2.kind.isCounted = true := by simp [deskNodes, NodeKind.isCounted]
    exact hc _ (Catalog.mem_of_find? hp)
  have hd : desk.HasDirectory (.ofText "/d/") :=
    .inl ⟨⟨.directory, .text "d", .text "ann", .null, 0, 0⟩, rfl, rfl⟩
  have hchildren : desk.index.childrenOf (.ofText "/d/") = [.ofText "/d/a", .ofText "/d/s"] := by
    decide +kernel
  have ha : (Path.ofText "/d/a").text = "/d/a" := by decide +kernel
  have hs : (Path.ofText "/d/s").text = "/d/s" := by decide +kernel
  have hne : Path.ofText "/d/s" ≠ .ofText "/d/a" := by decide +kernel
  obtain ⟨hown, hparts, hadditive⟩ := report_additive hl (by decide : (1 : ℤ) ≤ 4) hd .standard
  rw [hchildren] at hparts hadditive
  obtain ⟨r, hr⟩ := hown (.still (.whole 0))
  obtain ⟨file, hfile⟩ := hparts (.ofText "/d/a") (by simp) (.still (.whole 0))
  obtain ⟨implied, himplied⟩ := hparts (.ofText "/d/s") (by simp) (.still (.whole 0))
  refine ⟨hl, by decide, hd, r, file, implied, hr, ha ▸ hfile, hs ▸ himplied, fun a f => ?_⟩
  have hsum := @hadditive _ r (fun _ => ⟨0, .still (.whole 0), false⟩)
    (fun c => if c = .ofText "/d/a" then file else implied) hr (by simp [hne, hfile, himplied]) a f
  simpa [hne] using hsum

end Snapshot.Tree

end UsageLedger
