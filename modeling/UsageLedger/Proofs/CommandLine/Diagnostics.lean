/-
UsageLedger/Proofs/CommandLine/Diagnostics.lean

Remarks and progress never change what a run comes to.  The same snapshot under the
same settings has one outcome, apart from what is said, whatever is said, whenever the run
takes place and however long it takes (`run_diagnostics`).

A collector goes through every visit, since its progress can always be written under a clock
that shows readings (`Collector.Readable.record`); a line that is due is only said.  The one
computation that is made for a remark alone and may fail is the total size in a sentence: it
needs a size in the range of double precision.
-/
import Mathlib.Algebra.Order.Ring.Rat
import UsageLedger.Proofs.CommandLine.Summary
import UsageLedger.Proofs.Number.Range
import UsageLedger.Proofs.Progress.Readings
import UsageLedger.Proofs.Report.Order
import UsageLedger.Proofs.Report.Writing
import UsageLedger.Proofs.Snapshot.Coverage

namespace UsageLedger

open Number

/-! ### Reports with remarks -/

/-- All that the clock shows while a report is made are readings. -/
structure Timing.Readable (t : Timing) : Prop where
  start : t.start.IsTime
  visiting : ∀ i, (t.visiting i).IsTime
  finish : t.finish.IsTime

theorem Timing.readable_still {now : Quantity} (h : now.IsTime) : (Timing.still now).Readable :=
  ⟨h, fun _ => h, h⟩

namespace Collector

variable {b : Borders} {c : Collector b} {now : Quantity} {more : ℕ}

/-- The progress of a collector, if there is one, may count so many nodes more. -/
def Readable (c : Collector b) (more : ℕ) : Prop := ∀ p ∈ c.progress, p.Readable more

theorem readable_advance {p : Progress} (h : p.Readable (more + 1)) (hnow : now.IsTime)
    (kind : NodeKind) :
    (advance p now kind).1.Readable more ∧ ∃ line, (advance p now kind).2 = .ok line := by
  cases kind with
  | file => exact h.update hnow rfl
  | directory => exact h.update hnow rfl
  | symlink => exact h.update hnow rfl
  | other _ => exact ⟨h.mono, "", rfl⟩

/-- One visit goes through. -/
theorem Readable.record (h : c.Readable (more + 1)) (hnow : now.IsTime) (verbose : ℤ) (v : Visit) :
    (c.record verbose now v).1.Readable more ∧ (c.record verbose now v).2.fault = none := by
  unfold Collector.record
  cases hp : c.progress with
  | none =>
    refine ⟨?_, rfl⟩
    intro p hnone
    cases hnone
  | some p =>
    obtain ⟨hreadable, line, hline⟩ := readable_advance (h p hp) hnow v.node.kind
    dsimp only
    generalize advance p now v.node.kind = advanced at hreadable hline ⊢
    obtain ⟨p', answer⟩ := advanced
    subst hline
    refine ⟨?_, rfl⟩
    intro p'' hsome
    cases hsome
    exact hreadable

theorem Readable.follow {clock : ℕ → Quantity} {events : List Event}
    (h : c.Readable (events.filterMap Event.visit?).length) (hclock : ∀ i, (clock i).IsTime)
    (verbose : ℤ) :
    (c.follow verbose clock events).1.Readable 0 ∧ (c.follow verbose clock events).2.fault = none := by
  -- Along the events, with the collector and the clock generalized: each visit goes through.
  induction events generalizing c clock with
  | nil => exact ⟨h, rfl⟩
  | cons event rest ih =>
    cases event with
    | remark text => exact ih h hclock
    | visit v =>
      obtain ⟨hreadable, hquiet⟩ := Readable.record h (hclock 0) verbose v
      simp only [Collector.follow]
      generalize c.record verbose (clock 0) v = recorded at hreadable hquiet ⊢
      obtain ⟨c', said, fault⟩ := recorded
      subst hquiet
      exact ih hreadable fun i => hclock (i + 1)

end Collector

namespace ReportSettings

variable {b : Borders} {label : String} {s : ReportSettings} {t : Traversal} {more : ℕ}

theorem readable_collector (hstart : s.timing.start.IsTime) (hmore : (more : ℤ) < overflow)
    (b : Borders) (label : String) : (s.collector b label).Readable more := by
  unfold collector
  intro p hp
  dsimp only at hp
  split at hp
  · cases hp
    exact Progress.readable_begin hstart hmore _ true
  · cases hp

/-- What is said about a finished report can be said, if its total size can. -/
theorem fault_closing {c : Collector b} (hc : c.Readable more) (htiming : s.timing.Readable)
    (h₀ : 0 ≤ c.report.overall.bytes) (hsize : c.report.overall.bytes < overflow) :
    (s.closing c).fault = none := by
  obtain ⟨q, hq, hrange⟩ := Progress.exists_between htiming.start htiming.finish
  obtain ⟨time, htext⟩ := Elapsed.exists_text_of_inRange hrange
  obtain ⟨bytes, hbytes⟩ := Size.exists_scaled h₀ hsize
  unfold closing
  dsimp only
  split
  · -- The last line of the progress does not fail.
    rename_i f hf
    cases hp : c.progress with
    | none =>
      rw [hp] at hf
      cases hf
    | some p =>
      obtain ⟨line, hline⟩ := (hc p hp).exists_final htiming.finish
      rw [hp] at hf
      cases hf.symm.trans hline
  · split
    · rfl
    · rw [hq, Except.bind, htext]
      dsimp only
      rw [hbytes]

/-- Remarks do not get in the way of a report with a total size in range. -/
theorem report_said (htiming : s.timing.Readable) (hmany : (t.visits.length : ℤ) < overflow)
    (hsize : t.fault = none → 0 ≤ (Report.ofVisits b label t.visits).overall.bytes ∧
      (Report.ofVisits b label t.visits).overall.bytes < overflow) :
    (s.report b label t).2 = t.toExcept.map (Report.ofVisits b label) := by
  obtain ⟨hreadable, hquiet⟩ :=
    (readable_collector htiming.start hmany b label).follow htiming.visiting s.verbose
  have hreport : ((s.collector b label).follow s.verbose s.timing.visiting t.events).1.report =
      .ofVisits b label t.visits := Collector.report_follow hquiet
  unfold report
  generalize (s.collector b label).follow s.verbose s.timing.visiting t.events = followed
    at hreadable hquiet hreport ⊢
  obtain ⟨c, said, fault⟩ := followed
  dsimp only at hreadable hquiet hreport ⊢
  subst hquiet
  -- From here on the collector is known by its report and its progress alone.
  unfold Traversal.toExcept
  cases hf : t.fault with
  | some f => rfl
  | none =>
    obtain ⟨h₀, hlt⟩ := hsize hf
    have hclosing := fault_closing hreadable htiming (hreport ▸ h₀) (hreport ▸ hlt)
    generalize s.closing c = closed at hclosing ⊢
    obtain ⟨more, fault⟩ := closed
    dsimp only at hclosing
    subst hclosing
    exact congrArg Except.ok hreport

end ReportSettings

/-! ### Runs with remarks -/

namespace Snapshot.Tree

variable {t : Tree} {workers : ℤ} {given : String}

/-- There are no more visits than recorded nodes, and at most one where the workers are at fault. -/
theorem length_visits_lt {bound : ℤ} (hl : t.nodes.Loadable) (hone : 1 < bound)
    (hnodes : (t.nodes.length : ℤ) < bound) :
    ((t.visit workers given).visits.length : ℤ) < bound := by
  cases hf : (t.visit workers given).fault with
  | none =>
    rw [((delivers_of_fault hf).perm hl).length_eq, recordedWithin, List.length_map]
    have hle := List.length_filter_le (fun e => decide (e.1.Within (.ofText given))) t.nodes
    omega
  | some f =>
    have hfew : (t.visit workers given).visits.length ≤ 1 := by
      have hroot : (t.visit? (.ofText given)).toList.length ≤ 1 := Option.length_toList_le
      unfold visit at hf ⊢
      dsimp only at hf ⊢
      split
      · exact Nat.zero_le 1
      · split
        · rwa [Traversal.visits_ofVisits]
        · split
          · exact (congrArg List.length (Traversal.visits_ofVisits _)).trans_le hroot
          · rename_i hcontains hholds hworkers
            rw [if_neg hcontains, if_neg hholds, if_neg hworkers] at hf
            cases hf
    omega

/-- The total size in the report of a visit is at most that of all that is recorded there. -/
theorem bytes_ofVisits_le (b : Borders) (label : String) (hl : t.nodes.Loadable)
    (hs : t.nodes.Sound) (h : (t.visit workers given).fault = none) :
    0 ≤ (Report.ofVisits b label (t.visit workers given).visits).overall.bytes ∧
      (Report.ofVisits b label (t.visit workers given).visits).overall.bytes ≤
        ((t.recordedWithin (.ofText given)).map (·.node.size)).sum := by
  -- The visits are what is recorded there, in some order.
  have hperm := (delivers_of_fault h).perm hl
  have hsound : ∀ v ∈ (t.visit workers given).visits, v.node.Sound :=
    fun v hv => sound_recordedWithin hs _ v (hperm.mem_iff.1 hv)
  have htotal : (Report.ofVisits b label (t.visit workers given).visits).overall.bytes =
      Figure.bytes.total b (t.visit workers given).visits := by
    have haccounts := (Report.accounts_ofVisits b label (t.visit workers given).visits).overall .bytes
    rwa [callbacks_of_sound hsound] at haccounts
  rw [htotal, ← (hperm.map (·.node.size)).sum_eq]
  exact ⟨Figure.bytes.total_nonneg hsound, Figure.bytes.total_le hsound⟩

end Snapshot.Tree

/-- Double precision has a range for the number of nodes that are recorded, and for the total size of
those at or below each of some paths. -/
structure Snapshot.Tree.Countable (t : Tree) (paths : List String) : Prop where
  nodes : (t.nodes.length : ℤ) < overflow
  sizes : ∀ path ∈ paths, ((t.recordedWithin (.ofText path)).map (·.node.size)).sum < overflow

namespace CommandLine

/-- The options with something said on the way. -/
def Options.telling (o : Options) (verbose : ℕ) (progress : Bool) : Options :=
  { o with verbose, progress }

/-- **Remarks and progress never change what a run comes to.**  Two runs over the same snapshot file
with the same options but for these, in whatever surroundings and however long they take, print the
same, end the same way and write the same files.  The clocks have to show readings while the paths are
reported, and what is reported has to be in the range of double precision. -/
theorem run_diagnostics (w w' : Surroundings) (o : Options) (verbose verbose' : ℕ)
    (progress progress' : Bool) (hfile : w.files o.snapshot = w'.files o.snapshot)
    (hfacilities : w.facilities = w'.facilities) (hsnapshot : o.snapshot ≠ "")
    (hclock : ∀ i, (w.clock.reports i).Readable) (hclock' : ∀ i, (w'.clock.reports i).Readable)
    (hsize : ∀ tree,
      (Snapshot.load w.facilities.showing false o.snapshot (w.files o.snapshot)).2 = .ok tree →
        tree.Countable o.places) :
    (run w (o.telling verbose progress)).mute = (run w' (o.telling verbose' progress')).mute := by
  have hone : (1 : ℤ) < overflow := by exact_mod_cast one_lt_overflow
  -- Either run comes to the summary, which knows neither the remarks nor the clock.
  have hsummary {w : Surroundings} (hclock : ∀ i, (w.clock.reports i).Readable)
      (hsize : ∀ tree,
        (Snapshot.load w.facilities.showing false o.snapshot (w.files o.snapshot)).2 = .ok tree →
          tree.Countable o.places)
      (verbose : ℕ) (progress : Bool) :
      (run w (o.telling verbose progress)).mute =
        summary w.facilities (o.telling verbose progress) (w.files o.snapshot) := by
    refine mute_run hsnapshot fun {l tree} _ ht path hp i => ?_
    have hl := Snapshot.Tree.loadable_of_load ht
    refine ReportSettings.report_said (hclock i)
      (Snapshot.Tree.length_visits_lt hl hone (hsize tree ht).nodes) fun hf => ?_
    obtain ⟨h₀, hle⟩ :=
      Snapshot.Tree.bytes_ofVisits_le l.borders path hl (Snapshot.Tree.sound_of_load ht) hf
    exact ⟨h₀, lt_of_le_of_lt hle ((hsize tree ht).sizes path hp)⟩
  have hsame : summary w'.facilities (o.telling verbose progress) (w'.files o.snapshot) =
      summary w'.facilities (o.telling verbose' progress') (w'.files o.snapshot) := rfl
  rw [hsummary hclock hsize, hsummary hclock' (hfile ▸ hfacilities ▸ hsize), hfile, hfacilities, hsame]

/-- A snapshot with a file and a link. -/
def fileAndLink : String :=
  "\x7b\"path\":\"/a\",\"type\":\"FS_FILE_TYPE_FILE\",\"size\":5\x7d\n" ++
    "\x7b\"path\":\"/b\",\"type\":\"FS_FILE_TYPE_SYMLINK\"\x7d"

/-- A report that takes minutes: more than one to the first visit, a second to the others. -/
def minutes : Timing where
  start := .real (.finite false 2001 (-1))
  visiting i := if i = 0 then .whole 1100 else .whole 1101
  finish := .whole 1200

theorem readable_minutes : minutes.Readable where
  start := by
    have hlt : ((1001 : ℕ) : ℚ) < overflow := (isDouble_natCast (by norm_num)).lt_overflow
    refine ⟨_, Binary64.toRat?_finite false 2001 (-1), ?_⟩
    rw [if_neg Bool.false_ne_true]
    norm_num at hlt ⊢
    linarith
  visiting i := by
    unfold minutes
    dsimp only
    split
    · exact Quantity.isTime_whole 1100 (by norm_num)
    · exact Quantity.isTime_whole 1101 (by norm_num)
  finish := Quantity.isTime_whole 1200 (by norm_num)

/-- A run in which time passes. -/
def Surroundings.lasting (text : String) : Surroundings :=
  { Surroundings.holding text with clock := ⟨.whole 1000, fun _ => minutes, .whole 1200⟩ }

/-- A quiet run, and one that takes minutes and says everything there is to say.  In such a run a line of
the progress is due after the first visit. -/
theorem run_diagnostics_fileAndLink :
    (∀ tree, (Snapshot.load Facilities.standard.showing false "list" (.ofText fileAndLink)).2 = .ok tree →
      tree.Countable Options.viewing.places) ∧
      (run (.holding fileAndLink) (Options.viewing.telling 0 false)).mute =
        (run (.lasting fileAndLink) (Options.viewing.telling 2 true)).mute ∧
      ∃ later, (run (.lasting fileAndLink) (Options.viewing.telling 0 true)).said =
        "\x0d[PROGRESS] 1 objects visited | 1 files | 0 dirs | 0 symlinks | 0.0 obj/sec | " ++
          "Run time: 1m 39s (99.5s)" ++ later := by
  have hsize : ∀ tree, (Snapshot.load Facilities.standard.showing false "list" (.ofText fileAndLink)).2 =
      .ok tree → tree.Countable Options.viewing.places := by
    intro tree ht
    have hall : (Snapshot.load Facilities.standard.showing false "list" (.ofText fileAndLink)).2.toOption.all
        (fun tree => decide ((tree.nodes.length : ℤ) < overflow ∧ ∀ path ∈ Options.viewing.places,
          ((tree.recordedWithin (.ofText path)).map (·.node.size)).sum < overflow)) = true := by
      decide +kernel
    have htree := of_toOption_all hall ht
    obtain ⟨hnodes, hsizes⟩ := of_decide_eq_true htree
    exact ⟨hnodes, hsizes⟩
  refine ⟨hsize, run_diagnostics (.holding fileAndLink) (.lasting fileAndLink) .viewing 0 2 false true rfl rfl
    (by decide) (fun _ => ?_) (fun _ => readable_minutes) hsize, ?_⟩
  · exact Timing.readable_still (Quantity.isTime_whole 0 (by norm_num))
  · refine ⟨"\x0d[PROGRESS] 2 objects visited | 1 files | 0 dirs | 1 symlinks | 0.0 obj/sec | " ++
      "Run time: 1m 40s (100.5s)" ++
      "\x0d[PROGRESS] FINAL: 2 objects visited | 1 files | 0 dirs | 1 symlinks | 0.0 obj/sec | " ++
      "Run time: 3m 19s (199.5s)\n", ?_⟩
    decide +kernel

/-- A snapshot with two files whose sizes together are beyond double precision. -/
def vastFiles : String :=
  "\x7b\"path\":\"/a\",\"type\":\"FS_FILE_TYPE_FILE\",\"size\":1e308\x7d\n" ++
    "\x7b\"path\":\"/b\",\"type\":\"FS_FILE_TYPE_FILE\",\"size\":1e308\x7d"

/-- **A total size beyond double precision ends a run that speaks of it.**  The quiet run goes through. -/
theorem run_broken_by_vast_size :
    (run (.holding vastFiles) (Options.viewing.telling 0 false)).exit = .code 0 ∧
      (run (.holding vastFiles) (Options.viewing.telling 1 false)).exit = .fault .outOfRange := by
  decide +kernel

end CommandLine

end UsageLedger
