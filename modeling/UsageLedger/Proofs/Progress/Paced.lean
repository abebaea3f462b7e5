/-
UsageLedger/Proofs/Progress/Paced.lean

The progress of a traversal is accurate and keeps its pace.

A collector with a progress is watched over a run: visits, and any number of whole seconds
that pass between them.  Every line comes more than an interval after the one before it,
for that is when the progress answers with one (`Watched.Keeps.step`).  From this alone it
follows that lines are late and few (`Pace.Spaces`); and all of it holds after any run
(`Pace.run_paced`).

A line that is due is written as long as double precision, in which a clock shows the time,
has a range for the time since the beginning and for the number of visits
(`Watched.InRange`).
-/
import Mathlib.Data.List.Chain
import UsageLedger.Proofs.Progress.Answers

namespace UsageLedger

open Number

variable {b : Borders} {g : Pace} {now last : ℤ} {u : Usage b} {p : Progress}

/-! ### Times of lines -/

namespace Pace

variable {times : List ℤ}

/-- The last of some times, or the beginning. -/
def lastOf (g : Pace) (times : List ℤ) : ℤ := times.getLast?.getD g.start

theorem lastOf_concat (g : Pace) (times : List ℤ) (t : ℤ) : g.lastOf (times ++ [t]) = t := by
  rw [lastOf, List.getLast?_concat]
  rfl

/-- Times up to now that keep a pace: the first one from the beginning, and each from the one before. -/
structure Spaces (g : Pace) (times : List ℤ) (now : ℤ) : Prop where
  apart : (g.start :: times).IsChain fun t t' => g.interval < t' - t
  passed : g.lastOf times ≤ now

theorem getLast?_cons_start (g : Pace) (times : List ℤ) :
    (g.start :: times).getLast? = some (g.lastOf times) := List.getLast?_cons

theorem spaces_nil (g : Pace) : g.Spaces [] g.start := ⟨.singleton _, le_rfl⟩

theorem Spaces.wait (h : g.Spaces times now) (seconds : ℕ) : g.Spaces times (now + seconds) :=
  ⟨h.apart, by have := h.passed; omega⟩

theorem Spaces.concat (h : g.Spaces times now) (hdue : g.interval < now - g.lastOf times) :
    g.Spaces (times ++ [now]) now where
  apart := by
    rw [← List.cons_append, List.isChain_append, getLast?_cons_start]
    refine ⟨h.apart, .singleton _, ?_⟩
    rintro t ⟨⟩ t' ⟨⟩
    exact hdue
  passed := (g.lastOf_concat times now).le

/-- Any two of the times are more than the interval apart. -/
theorem Spaces.pairwise (h : g.Spaces times now) :
    (g.start :: times).Pairwise fun t t' => g.interval < t' - t := by
  have htrans : IsTrans ℤ fun t t' => g.interval < t' - t := ⟨fun t t' t'' h h' => by
    have := g.positive
    omega⟩
  exact h.apart.pairwise

theorem Spaces.begun (h : g.Spaces times now) : g.start ≤ g.lastOf times := by
  have hlast : g.lastOf times ∈ g.start :: times := List.mem_of_getLast? (g.getLast?_cons_start times)
  rcases List.mem_cons.1 hlast with hlast | hlast
  · rw [hlast]
  · have hlate := List.rel_of_pairwise_cons h.pairwise hlast
    have := g.positive
    omega

/-- Every time is late: the intervals before it are over. -/
theorem lt_getElem_of_isChain {interval start : ℤ}
    (h : (start :: times).IsChain fun t t' => interval < t' - t) (k : ℕ) (hk : k < times.length) :
    start + (k + 1) * interval < times[k] := by
  induction times generalizing start k with
  | nil => cases hk
  | cons t rest ih =>
    obtain ⟨hfirst, hrest⟩ := List.isChain_cons_cons.1 h
    cases k with
    | zero =>
      rw [List.getElem_cons_zero]
      push_cast
      linarith
    | succ k =>
      have hlate := ih hrest k (Nat.lt_of_succ_lt_succ hk)
      rw [List.getElem_cons_succ]
      push_cast
      linarith

/-- There are no more times than intervals. -/
theorem Spaces.length_le (h : g.Spaces times now) : (times.length : ℤ) ≤ (now - g.start) / g.interval := by
  refine (Int.le_ediv_iff_mul_le g.positive).2 ?_
  have hpassed := h.passed
  rcases List.eq_nil_or_concat times with rfl | ⟨earlier, t, rfl⟩
  · have hstart : g.lastOf [] = g.start := rfl
    rw [List.length_nil, Nat.cast_zero, Int.zero_mul]
    omega
  · rw [List.concat_eq_append] at h hpassed ⊢
    have hlate := lt_getElem_of_isChain h.apart earlier.length (by simp)
    rw [List.getElem_concat_length rfl] at hlate
    rw [lastOf_concat] at hpassed
    rw [List.length_append, List.length_singleton]
    push_cast
    linarith

end Pace

/-! ### Whole runs -/

/-- What happens to a collector: time passes, or a node is visited. -/
inductive Happening
  | wait (seconds : ℕ)
  | visit (v : Visit)

/-- What was said about a visit, and when. -/
structure Said where
  time : ℤ
  visit : Visit
  remark : Remark

namespace Said

/-- Whether more was said than the remarks on the visit: a line about the progress. -/
def hasLine (verbose : ℤ) (s : Said) : Bool := s.remark.said != Collector.remarks verbose s.visit

/-- The times of the lines in all that was said. -/
def times (verbose : ℤ) (said : List Said) : List ℤ := (said.filter (hasLine verbose)).map time

theorem times_concat (verbose : ℤ) (said : List Said) (s : Said) :
    times verbose (said ++ [s]) = times verbose said ++ if s.hasLine verbose then [s.time] else [] := by
  unfold times
  rw [List.filter_append, List.map_append]
  cases hline : s.hasLine verbose <;> simp [hline]

end Said

/-- A collector that is watched, with the clock and all that was said. -/
structure Watched (b : Borders) where
  now : ℤ
  collector : Collector b
  said : List Said

namespace Watched

/-- One more happening. -/
def step (verbose : ℤ) (w : Watched b) : Happening → Watched b
  | .wait seconds => { w with now := w.now + seconds }
  | .visit v =>
    let (collector, remark) := w.collector.record verbose (.whole w.now) v
    { w with collector, said := w.said ++ [⟨w.now, v, remark⟩] }

/-- Happenings one after another. -/
def run (verbose : ℤ) (w : Watched b) (happenings : List Happening) : Watched b :=
  happenings.foldl (step verbose) w

/-- The times of the lines about the progress. -/
def times (verbose : ℤ) (w : Watched b) : List ℤ := Said.times verbose w.said

end Watched

/-- A collector with a progress of a pace, at the beginning. -/
def Pace.begin (g : Pace) (b : Borders) (path : String) : Watched b :=
  ⟨g.start, ⟨.start b path, some (.begin (.whole g.start) (.whole g.interval) g.shown)⟩, []⟩

variable {verbose : ℤ} {v : Visit}

/-- What is said keeps a pace: a line comes more than an interval after the last one, and is the last one
from then on. -/
def Said.InTime (s : Said) (g : Pace) (verbose last last' : ℤ) : Prop :=
  if s.hasLine verbose then g.interval < s.time - last ∧ last' = s.time else last' = last

/-- An answer is given in time. -/
theorem Answer.inTime {answer : Except Fault String} {last' : ℤ} (h : Answer g last now u answer last')
    (verbose : ℤ) (v : Visit) :
    Said.InTime ⟨now, v, Collector.remarkOf (Collector.remarks verbose v) answer⟩ g verbose last last' := by
  unfold Said.InTime Said.hasLine
  cases h with
  | quiet => simp [Collector.remarkOf]
  | line _ hdue _ hs => simp [Collector.remarkOf, hs.ne_empty, hdue]
  | fault => simp [Collector.remarkOf]

/-- A progress that is not shown has no answer. -/
theorem Answer.of_not_shown {answer : Except Fault String} {last' : ℤ} (h : Answer g last now u answer last')
    (hshown : g.shown = false) (said : String) : Collector.remarkOf said answer = ⟨said, none⟩ := by
  cases h with
  | quiet => simp [Collector.remarkOf]
  | line h => rw [hshown] at h; cases h
  | fault h => rw [hshown] at h; cases h

namespace Watched

variable {w : Watched b}

/-- What every happening preserves. -/
structure Keeps (w : Watched b) (g : Pace) (verbose : ℤ) : Prop where
  tracks : ∃ p, w.collector.progress = some p ∧
    p.Tracks g (g.lastOf (w.times verbose)) w.collector.report.overall
  counted : w.collector.report.overall.nodes ≤ w.said.length
  spaced : g.Spaces (w.times verbose) w.now
  silent : g.shown = false → ∀ s ∈ w.said, s.remark = ⟨Collector.remarks verbose s.visit, none⟩

theorem keeps_begin (g : Pace) (b : Borders) (path : String) (verbose : ℤ) :
    (g.begin b path).Keeps g verbose where
  tracks := ⟨_, rfl, rfl, rfl, rfl, rfl, rfl, rfl, rfl⟩
  counted := le_rfl
  spaced := g.spaces_nil
  silent := fun _ _ hs => absurd hs List.not_mem_nil

/-- One more visit, with a remark that is made in time. -/
theorem Keeps.append (h : w.Keeps g verbose) {c : Collector b} {remark : Remark}
    (hline : Said.InTime ⟨w.now, v, remark⟩ g verbose (g.lastOf (w.times verbose)) last)
    (hp : c.progress = some p) (htracks : p.Tracks g last c.report.overall)
    (hcounted : c.report.overall.nodes ≤ w.said.length + 1)
    (hsilent : g.shown = false → remark = ⟨Collector.remarks verbose v, none⟩) :
    Watched.Keeps ⟨w.now, c, w.said ++ [⟨w.now, v, remark⟩]⟩ g verbose := by
  have hsaid : g.shown = false → ∀ s ∈ w.said ++ [⟨w.now, v, remark⟩],
      s.remark = ⟨Collector.remarks verbose s.visit, none⟩ := by
    intro hshown s hs
    rcases List.mem_append.1 hs with hs | hs
    · exact h.silent hshown s hs
    · cases List.mem_singleton.1 hs
      exact hsilent hshown
  have htimes : times verbose ⟨w.now, c, w.said ++ [⟨w.now, v, remark⟩]⟩ =
      w.times verbose ++ if Said.hasLine verbose ⟨w.now, v, remark⟩ then [w.now] else [] :=
    Said.times_concat verbose w.said ⟨w.now, v, remark⟩
  have hlength : c.report.overall.nodes ≤ (w.said ++ [(⟨w.now, v, remark⟩ : Said)]).length := by
    rw [List.length_append, List.length_singleton]
    exact_mod_cast hcounted
  unfold Said.InTime at hline
  split at hline
  · rename_i hheard
    obtain ⟨hdue, rfl⟩ := hline
    rw [if_pos hheard] at htimes
    refine ⟨⟨p, hp, ?_⟩, hlength, htimes ▸ h.spaced.concat hdue, hsaid⟩
    rw [htimes, Pace.lastOf_concat]
    exact htracks
  · rename_i hheard
    subst hline
    rw [if_neg hheard, List.append_nil] at htimes
    exact ⟨⟨p, hp, htimes ▸ htracks⟩, hlength, htimes ▸ h.spaced, hsaid⟩

/-- **One happening.**  The counts keep agreeing, and the lines their pace. -/
theorem Keeps.step (h : w.Keeps g verbose) (happening : Happening) :
    (w.step verbose happening).Keeps g verbose := by
  obtain ⟨p, hp, htracks⟩ := h.tracks
  cases happening with
  | wait seconds => exact ⟨h.tracks, h.counted, h.spaced.wait seconds, h.silent⟩
  | visit v =>
    have hcounted : (w.collector.record verbose (.whole w.now) v).1.report.overall.nodes ≤
        w.said.length + 1 := by
      rw [Collector.report_record]
      exact (Report.nodes_record_le _ v.node).trans (by have := h.counted; omega)
    cases hv : v.node.kind.isCounted with
    | true =>
      obtain ⟨answer, last', p', hanswer, hp', htracks', hremark⟩ :=
        Collector.exists_answer hp htracks h.spaced.begun hv verbose w.now
      exact h.append (hremark ▸ hanswer.inTime verbose v) hp' htracks' hcounted fun hshown =>
        hremark.trans (hanswer.of_not_shown hshown _)
    | false =>
      have hrecord := Collector.record_of_not_isCounted hp hv verbose (.whole w.now)
      unfold Watched.step
      dsimp only
      rw [hrecord] at hcounted ⊢
      exact h.append (by simp [Said.InTime, Said.hasLine]) hp htracks hcounted fun _ => rfl

theorem Keeps.run (h : w.Keeps g verbose) (happenings : List Happening) :
    (w.run verbose happenings).Keeps g verbose := by
  induction happenings generalizing w with
  | nil => exact h
  | cons happening rest ih => exact ih (h.step happening)

/-- Double precision, in which a clock shows the time, has a range for the time since the beginning and
for one more visit. -/
structure InRange (w : Watched b) (g : Pace) : Prop where
  clock : w.now - g.start < overflow
  visits : (w.said.length : ℤ) + 1 < overflow

/-- One visit when the interval is over: a line about the report with the visit in it. -/
theorem Keeps.due (h : w.Keeps g verbose) (hrange : w.InRange g) (hv : v.node.kind.isCounted = true)
    (hshown : g.shown = true) (hdue : g.interval < w.now - g.lastOf (w.times verbose)) :
    ∃ line, (w.collector.record verbose (.whole w.now) v).2 =
        ⟨Collector.remarks verbose v ++ line, none⟩ ∧
      (w.collector.record verbose (.whole w.now) v).1.report.overall.ShownBy (w.now - g.start) line := by
  obtain ⟨p, hp, htracks⟩ := h.tracks
  obtain ⟨answer, last', p', hanswer, -, -, hremark⟩ :=
    Collector.exists_answer hp htracks h.spaced.begun hv verbose w.now
  rw [hremark]
  cases hanswer with
  | quiet hquiet =>
    rcases hquiet with hquiet | hquiet
    · rw [hshown] at hquiet
      cases hquiet
    · omega
  | line _ _ _ hs => exact ⟨_, rfl, hs⟩
  | fault _ _ hfits =>
    -- At least a second has passed, and there is a range for the nodes of one second.
    refine absurd ⟨hrange.clock, ?_⟩ hfits
    have hnodes := Report.nodes_record_le w.collector.report v.node
    have hcounted := h.counted
    have hvisits := hrange.visits
    have hsecond : 1 ≤ w.now - g.start := by
      have hbegun := h.spaced.begun
      have hpositive := g.positive
      omega
    rw [Collector.report_record]
    refine lt_of_lt_of_le ?_ (le_mul_of_one_le_right ?_ hsecond)
    · omega
    · omega

/-- Nothing is said about the progress before the interval is over, or about a node that does not count. -/
theorem Keeps.early (h : w.Keeps g verbose) (v : Visit)
    (hearly : v.node.kind.isCounted = true → w.now - g.lastOf (w.times verbose) ≤ g.interval) :
    (w.collector.record verbose (.whole w.now) v).2 = ⟨Collector.remarks verbose v, none⟩ := by
  obtain ⟨p, hp, htracks⟩ := h.tracks
  cases hv : v.node.kind.isCounted with
  | true =>
    obtain ⟨answer, last', p', hanswer, -, -, hremark⟩ :=
      Collector.exists_answer hp htracks h.spaced.begun hv verbose w.now
    have hnow := hearly hv
    rw [hremark]
    cases hanswer with
    | quiet => simp [Collector.remarkOf]
    | line _ hdue => omega
    | fault _ hdue => omega
  | false => rw [Collector.record_of_not_isCounted hp hv]

/-- A collector whose progress is accurate and keeps its pace. -/
structure Paced (w : Watched b) (g : Pace) (verbose : ℤ) : Prop where
  counts : ∃ p, w.collector.progress = some p ∧ p.files = w.collector.report.overall.files ∧
    p.directories = w.collector.report.overall.directories ∧
    p.symlinks = w.collector.report.overall.symlinks
  /-- A progress that is not shown writes nothing. -/
  silent : g.shown = false → ∀ s ∈ w.said, s.remark = ⟨Collector.remarks verbose s.visit, none⟩
  apart : (g.start :: w.times verbose).Pairwise fun t t' => g.interval < t' - t
  late : ∀ k (hk : k < (w.times verbose).length), g.start + (k + 1) * g.interval < (w.times verbose)[k]
  few : ((w.times verbose).length : ℤ) ≤ (w.now - g.start) / g.interval
  /-- When the interval is over, the next visit is told with a line about the report. -/
  due : w.InRange g → ∀ v : Visit, v.node.kind.isCounted = true → g.shown = true →
    g.interval < w.now - g.lastOf (w.times verbose) →
    ∃ line, (w.collector.record verbose (.whole w.now) v).2 =
        ⟨Collector.remarks verbose v ++ line, none⟩ ∧
      (w.collector.record verbose (.whole w.now) v).1.report.overall.ShownBy (w.now - g.start) line
  early : ∀ v : Visit, (v.node.kind.isCounted = true → w.now - g.lastOf (w.times verbose) ≤ g.interval) →
    (w.collector.record verbose (.whole w.now) v).2 = ⟨Collector.remarks verbose v, none⟩

end Watched

/-- **Progress is accurate and keeps its pace**, after any happenings. -/
theorem Pace.run_paced (g : Pace) (b : Borders) (path : String) (verbose : ℤ)
    (happenings : List Happening) : ((g.begin b path).run verbose happenings).Paced g verbose := by
  have h := (Watched.keeps_begin g b path verbose).run happenings
  obtain ⟨p, hp, htracks⟩ := h.tracks
  exact
    { counts := ⟨p, hp, htracks.files, htracks.directories, htracks.symlinks⟩
      silent := h.silent
      apart := h.spaced.pairwise
      late := fun k hk => Pace.lt_getElem_of_isChain h.spaced.apart k hk
      few := h.spaced.length_le
      due := fun hrange _ hv hshown hdue => h.due hrange hv hshown hdue
      early := fun v hearly => h.early v hearly }

/-- A file. -/
def plainFile : Visit := ⟨"/a", ⟨.file, .text "a", .text "ann", .text "staff", 1, 1⟩⟩

/-- A progress with an interval of one second that is shown. -/
def everySecond : Pace := ⟨0, 1, by decide, true⟩

/-- A file after two seconds is told with a line. -/
theorem run_paced_everySecond :
    let w := (everySecond.begin .standard "/").run 0 [.wait 2]
    w.InRange everySecond ∧ everySecond.interval < w.now - everySecond.lastOf (w.times 0) ∧
      ∃ line, (w.collector.record 0 (.whole w.now) plainFile).2 =
          ⟨Collector.remarks 0 plainFile ++ line, none⟩ ∧
        (w.collector.record 0 (.whole w.now) plainFile).1.report.overall.ShownBy 2 line := by
  have hrange : ((everySecond.begin .standard "/").run 0 [.wait 2]).InRange everySecond :=
    ⟨by decide +kernel, by decide +kernel⟩
  have hdue : everySecond.interval < ((everySecond.begin .standard "/").run 0 [.wait 2]).now -
      everySecond.lastOf (((everySecond.begin .standard "/").run 0 [.wait 2]).times 0) := by
    decide +kernel
  exact ⟨hrange, hdue, (everySecond.run_paced .standard "/" 0 [.wait 2]).due hrange plainFile rfl rfl hdue⟩

end UsageLedger
