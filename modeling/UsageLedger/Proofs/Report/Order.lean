/-
UsageLedger/Proofs/Report/Order.lean

What a report does not depend on: the order of the visits, their paths, the names of
the nodes, and whatever is said on the way.  Two traversals that go through and meet
the same nodes, up to order and names, give the same reports
(`Traversal.sameReports_of_perm`).
-/
import UsageLedger.Proofs.Report.Attribution
import UsageLedger.Proofs.Report.Interleaving

namespace UsageLedger

open Number

variable {b : Borders} {label : String} {visits visits' : List Visit}

/-! ### Order and names -/

/-- A visit as far as a report takes note of it. -/
def Visit.bare (v : Visit) : Visit := ⟨"", { v.node with name := .null }⟩

namespace Report

theorem record_bare (r : Report b) (v : Visit) : r.record v.bare.node = r.record v.node := by
  obtain ⟨path, kind, name, user, group, size, blocks⟩ := v
  cases kind <;> rfl

theorem ofVisits_map_bare (b : Borders) (label : String) (visits : List Visit) :
    ofVisits b label (visits.map Visit.bare) = ofVisits b label visits := by
  unfold ofVisits
  rw [List.foldl_map]
  simp only [record_bare]

/-- The order of the visits makes no difference to a report. -/
theorem agrees_of_perm (h : visits.Perm visits') :
    (ofVisits b label visits).Agrees (ofVisits b label visits') := by
  have ha := accounts_ofVisits b label visits
  have ha' := accounts_ofVisits b label visits'
  have hc : (callbacks visits).Perm (callbacks visits') := h.filter _
  refine ⟨?_, ?_, ?_, ?_⟩
  · rw [path_ofVisits, path_ofVisits]
  · apply Usage.ext_figure
    intro f
    rw [ha.overall, ha'.overall]
    exact (hc.map _).sum_eq
  · exact ha.groups.toAttributed.perm ha'.groups.toAttributed hc
  · exact ha.users.toAttributed.perm ha'.users.toAttributed hc

/-- Nor do the paths of the visits and the names of the nodes. -/
theorem agrees_of_bare_perm (h : (visits.map Visit.bare).Perm (visits'.map Visit.bare)) :
    (ofVisits b label visits).Agrees (ofVisits b label visits') := by
  rw [← ofVisits_map_bare b label visits, ← ofVisits_map_bare b label visits']
  exact agrees_of_perm h

end Report

/-! ### Reports of traversals -/

/-- A collector that follows events without a fault has counted the visits among them. -/
theorem Collector.report_follow {verbose : ℤ} {clock : ℕ → Quantity} {c : Collector b}
    {events : List Event} (h : (c.follow verbose clock events).2.fault = none) :
    (c.follow verbose clock events).1.report =
      (events.filterMap Event.visit?).foldl (fun r v => r.record v.node) c.report := by
  induction events generalizing c clock with
  | nil => rfl
  | cons event rest ih =>
    cases event with
    | remark text => exact ih h
    | visit v =>
      have hrecord := report_record verbose (clock 0) c v
      simp only [follow] at h ⊢
      cases hr : c.record verbose (clock 0) v with
      | mk c' remark =>
        obtain ⟨said, fault⟩ := remark
        rw [hr] at h hrecord
        cases fault with
        | some f => cases h
        | none =>
          have hvisit : Event.visit? (.visit v) = some v := rfl
          rw [List.filterMap_cons_some hvisit, List.foldl_cons, ← hrecord]
          exact ih h

/-- Without progress nothing goes wrong on the way. -/
theorem Collector.fault_follow (verbose : ℤ) (clock : ℕ → Quantity) {c : Collector b}
    (hc : c.progress = none) (events : List Event) :
    (c.follow verbose clock events).2.fault = none ∧
      (c.follow verbose clock events).1.progress = none := by
  induction events generalizing c clock with
  | nil => exact ⟨rfl, hc⟩
  | cons event rest ih =>
    cases event with
    | remark text => exact ih clock hc
    | visit v =>
      have hr : c.record verbose (clock 0) v =
          (⟨c.report.record v.node, none⟩, ⟨remarks verbose v, none⟩) := by
        simp [record, hc]
      simp only [follow, hr]
      exact ih _ rfl

namespace ReportSettings

variable {s : ReportSettings} {t : Traversal} {r : Report b}

/-- A report, however it is made, is that of the visits. -/
theorem eq_of_report (h : (s.report b label t).2 = .ok r) : r = .ofVisits b label t.visits := by
  unfold report at h
  generalize hf : (s.collector b label).follow s.verbose s.timing.visiting t.events = followed at h
  obtain ⟨c, said, fault⟩ := followed
  cases fault with
  | some f => simp at h
  | none =>
    have hreport : c.report = .ofVisits b label t.visits := by
      have hquiet : ((s.collector b label).follow s.verbose s.timing.visiting t.events).2.fault = none := by rw [hf]
      have hfollow := Collector.report_follow hquiet
      rw [hf] at hfollow
      exact hfollow
    cases ht : t.fault with
    | some f => simp [ht] at h
    | none =>
      simp only [ht, Option.none_or] at h
      split at h
      · cases h
      · cases h
        exact hreport

/-- Only a traversal that goes through has a report. -/
theorem fault_of_report (h : (s.report b label t).2 = .ok r) : t.fault = none := by
  cases hf : t.fault with
  | none => rfl
  | some f =>
    unfold report at h
    cases hr : ((s.collector b label).follow s.verbose s.timing.visiting t.events).2.fault <;> simp [hr, hf] at h

/-- Without progress and remarks every traversal that goes through has a report. -/
theorem report_quiet (b : Borders) (label : String) (timing : Timing) (h : t.fault = none) :
    ((⟨0, timing, false⟩ : ReportSettings).report b label t).2 = .ok (.ofVisits b label t.visits) := by
  have hprogress : ((⟨0, timing, false⟩ : ReportSettings).collector b label).progress = none := rfl
  obtain ⟨hf, hp⟩ := Collector.fault_follow 0 timing.visiting hprogress t.events
  have hr := Collector.report_follow hf
  simp only [report, hf, h, Option.none_or, closing, hp]
  exact congrArg Except.ok hr

end ReportSettings

/-- Two traversals have the same reports: all reports of theirs agree, and both have one when nothing is to
be said. -/
structure Traversal.SameReports (t t' : Traversal) : Prop where
  agrees : ∀ {b : Borders} {label : String} {s s' : ReportSettings} {r r' : Report b},
    (s.report b label t).2 = .ok r → (s'.report b label t').2 = .ok r' → r.Agrees r'
  quiet : ∀ (b : Borders) (label : String) (timing timing' : Timing), ∃ r r',
    ((⟨0, timing, false⟩ : ReportSettings).report b label t).2 = .ok r ∧
      ((⟨0, timing', false⟩ : ReportSettings).report b label t').2 = .ok r'

theorem Traversal.sameReports_of_perm {t t' : Traversal} (ht : t.fault = none) (ht' : t'.fault = none)
    (h : (t.visits.map Visit.bare).Perm (t'.visits.map Visit.bare)) : t.SameReports t' where
  agrees := by
    intro b label s s' r r' hr hr'
    rw [ReportSettings.eq_of_report hr, ReportSettings.eq_of_report hr']
    exact Report.agrees_of_bare_perm h
  quiet := fun b label timing timing' =>
    ⟨_, _, ReportSettings.report_quiet b label timing ht, ReportSettings.report_quiet b label timing' ht'⟩

end UsageLedger
