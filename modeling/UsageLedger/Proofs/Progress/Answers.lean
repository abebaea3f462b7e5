/-
UsageLedger/Proofs/Progress/Answers.lean

What a progress answers to one visit.  It depends on how long its last line is ago
(`Answer`): nothing, or a line about the counts of the report, or a fault if double
precision does not hold what the line would say.  Whatever the answer is, the counts of
the progress agree with those of the report after the visit if they did before
(`Collector.exists_answer`).

The clock shows whole seconds.
-/
import Mathlib.Algebra.Order.Group.Int
import UsageLedger.Proofs.Progress.Readings
import UsageLedger.Proofs.Report.Attribution

namespace UsageLedger

open Number

variable {b : Borders} {elapsed total : ℤ}

/-! ### What a line says -/

namespace Elapsed

theorem text_of_overflow_le (h : overflow ≤ elapsed) :
    text (.whole elapsed) = .error .outOfRange := by
  have hseconds : seconds (.whole elapsed) = .error .outOfRange := by
    rw [seconds, Quantity.fixed?_whole_of_overflow_le h]
  unfold text
  rw [hseconds]
  split <;> rfl

end Elapsed

namespace Progress

theorem rate_of_overflow_le (hpos : 0 < elapsed) (h : overflow * elapsed ≤ total) :
    rate total (.whole elapsed) = .error .outOfRange := by
  have hden : (0 : ℚ) < elapsed := by exact_mod_cast hpos
  have hquotient : (overflow : ℚ) ≤ total / elapsed := by
    rw [le_div_iff₀ hden]
    exact_mod_cast h
  rw [rate_eq hpos, Binary64.ofRat_of_overflow_le hquotient]

end Progress

/-- The number of nodes in a usage. -/
def Usage.nodes (u : Usage b) : ℤ := u.files + u.directories + u.symlinks

/-- Double precision holds a time, and the nodes of a usage per second of it. -/
def Usage.FitsIn (u : Usage b) (elapsed : ℤ) : Prop :=
  elapsed < overflow ∧ u.nodes < overflow * elapsed

/-- The line about a usage, with its nodes per second and the time. -/
def Usage.line (u : Usage b) (perSecond time : String) : String :=
  "\r[PROGRESS] " ++ Text.grouped u.nodes ++ " objects visited | " ++ Text.grouped u.files ++
    " files | " ++ Text.grouped u.directories ++ " dirs | " ++ Text.grouped u.symlinks ++
    " symlinks | " ++ perSecond ++ " obj/sec | Run time: " ++ time

/-- A line is the one about a usage after a time. -/
def Usage.ShownBy (u : Usage b) (elapsed : ℤ) (line : String) : Prop :=
  ∃ perSecond time, Progress.rate u.nodes (.whole elapsed) = .ok perSecond ∧
    Elapsed.text (.whole elapsed) = .ok time ∧ line = u.line perSecond time

theorem Usage.ShownBy.ne_empty {u : Usage b} {line : String} (h : u.ShownBy elapsed line) : line ≠ "" := by
  obtain ⟨perSecond, time, -, -, rfl⟩ := h
  unfold Usage.line
  simp

/-- A visit adds one node at most. -/
theorem Report.nodes_record_le (r : Report b) (n : Node) :
    (r.record n).overall.nodes ≤ r.overall.nodes + 1 := by
  cases hn : n.kind.isCounted with
  | false =>
    rw [record_of_not_isCounted hn]
    omega
  | true =>
    have hcounts (f : Figure) := Usage.figure_counted n r.overall f
    have hfiles : ((Usage.counted n r.overall).files : ℤ) = r.overall.files + Figure.files.share b n :=
      hcounts .files
    have hdirectories : ((Usage.counted n r.overall).directories : ℤ) =
        r.overall.directories + Figure.directories.share b n := hcounts .directories
    have hsymlinks : ((Usage.counted n r.overall).symlinks : ℤ) =
        r.overall.symlinks + Figure.symlinks.share b n := hcounts .symlinks
    have hone : Figure.files.share b n + Figure.directories.share b n + Figure.symlinks.share b n ≤ 1 := by
      obtain ⟨kind, name, user, group, size, blocks⟩ := n
      cases kind <;> simp [Figure.share]
    rw [record_of_isCounted hn]
    show (Usage.counted n r.overall).nodes ≤ r.overall.nodes + 1
    unfold Usage.nodes
    omega

/-! ### One update -/

/-- The pace of a progress: when it begins, in whole seconds, how long it waits after a line, and
whether it writes lines at all. -/
structure Pace where
  start : ℤ
  interval : ℤ
  positive : 0 < interval
  shown : Bool

variable {g : Pace} {now last : ℤ} {u u' : Usage b} {p : Progress}

/-- A progress of a pace that has the counts of a usage, with the time of its last line. -/
structure Progress.Tracks (p : Progress) (g : Pace) (last : ℤ) (u : Usage b) : Prop where
  files : p.files = u.files
  directories : p.directories = u.directories
  symlinks : p.symlinks = u.symlinks
  start : p.start = .whole g.start
  last : p.last = .whole last
  interval : p.interval = .whole g.interval
  shown : p.shown = g.shown

/-- What a progress answers when it has the counts of a usage, some time after its last line, and what
the time of its last line is then. -/
inductive Answer (g : Pace) (last now : ℤ) (u : Usage b) : Except Fault String → ℤ → Prop
  | quiet (h : g.shown = false ∨ now - last ≤ g.interval) : Answer g last now u (.ok "") last
  | line {s : String} (hshown : g.shown = true) (hdue : g.interval < now - last)
      (hfits : u.FitsIn (now - g.start)) (hs : u.ShownBy (now - g.start) s) :
      Answer g last now u (.ok s) now
  | fault {f : Fault} (hshown : g.shown = true) (hdue : g.interval < now - last)
      (hfits : ¬ u.FitsIn (now - g.start)) : Answer g last now u (.error f) last

namespace Progress

theorem Tracks.total_eq (h : p.Tracks g last u) : p.total = u.nodes := by
  rw [total, h.files, h.directories, h.symlinks]
  rfl

/-- The line about a usage, if there is one. -/
theorem Tracks.line_eq (h : p.Tracks g last u) (now : ℤ) :
    p.line (.whole now) "" = (do
      let perSecond ← rate u.nodes (.whole (now - g.start))
      let time ← Elapsed.text (.whole (now - g.start))
      return u.line perSecond time) := by
  have hbetween : between (.whole g.start) (.whole now) = .ok (.whole (now - g.start)) := rfl
  unfold Progress.line
  rw [h.start, hbetween, h.total_eq, h.files, h.directories, h.symlinks]
  rfl

/-- A line is written in the range of double precision. -/
theorem Tracks.exists_line (h : p.Tracks g last u) (hpos : 0 < now - g.start)
    (hfits : u.FitsIn (now - g.start)) :
    ∃ s, p.line (.whole now) "" = .ok s ∧ u.ShownBy (now - g.start) s := by
  have hnodes : 0 ≤ u.nodes := by
    unfold Usage.nodes
    omega
  obtain ⟨perSecond, hrate⟩ := exists_rate_of_lt hpos hnodes hfits.2
  have hrange : (Quantity.whole (now - g.start)).InRange := by
    refine ⟨_, rfl, ?_⟩
    rw [abs_of_pos (by exact_mod_cast hpos)]
    exact_mod_cast hfits.1
  obtain ⟨time, htime⟩ := Elapsed.exists_text_of_inRange hrange
  refine ⟨_, ?_, perSecond, time, hrate, htime, rfl⟩
  rw [h.line_eq, hrate, htime]
  rfl

/-- Beyond the range of double precision no line is written. -/
theorem Tracks.line_broken (h : p.Tracks g last u) (hpos : 0 < now - g.start)
    (hfits : ¬ u.FitsIn (now - g.start)) : ∃ f, p.line (.whole now) "" = .error f := by
  rw [h.line_eq]
  cases hrate : rate u.nodes (.whole (now - g.start)) with
  | error f => exact ⟨f, rfl⟩
  | ok perSecond =>
    -- There is a rate, so it is the time that is out of range.
    have hnodes : u.nodes < overflow * (now - g.start) := by
      by_contra hlarge
      rw [rate_of_overflow_le hpos (not_lt.1 hlarge)] at hrate
      cases hrate
    have htime : overflow ≤ now - g.start := not_lt.1 fun hlt => hfits ⟨hlt, hnodes⟩
    rw [Elapsed.text_of_overflow_le htime]
    exact ⟨.outOfRange, rfl⟩

theorem Tracks.add (h : p.Tracks g last u) {files directories symlinks : ℤ}
    (hfiles : (u'.files : ℤ) = u.files + files)
    (hdirectories : (u'.directories : ℤ) = u.directories + directories)
    (hsymlinks : (u'.symlinks : ℤ) = u.symlinks + symlinks) :
    (p.add files directories symlinks).Tracks g last u' where
  files := by rw [hfiles, ← h.files]; rfl
  directories := by rw [hdirectories, ← h.directories]; rfl
  symlinks := by rw [hsymlinks, ← h.symlinks]; rfl
  start := h.start
  last := h.last
  interval := h.interval
  shown := h.shown

/-- An update adds to the counts, whatever the answer is. -/
theorem Tracks.exists_answer {files directories symlinks : ℤ}
    (hadd : (p.add files directories symlinks).Tracks g last u) (hbegun : g.start ≤ last) (now : ℤ) :
    ∃ last', Answer g last now u (p.update (.whole now) files directories symlinks).2 last' ∧
      (p.update (.whole now) files directories symlinks).1.Tracks g last' u := by
  have hbetween : between (.whole last) (.whole now) = .ok (.whole (now - last)) := rfl
  unfold update
  dsimp only
  rw [hadd.shown, hadd.last, hadd.interval, hbetween]
  dsimp only
  rw [Quantity.above_whole]
  by_cases hshown : g.shown = true
  · rw [hshown, Bool.not_true, if_neg Bool.false_ne_true]
    by_cases hdue : g.interval < now - last
    · rw [decide_eq_true hdue, if_pos rfl]
      have hpos : 0 < now - g.start := by
        have := g.positive
        omega
      by_cases hfits : u.FitsIn (now - g.start)
      · obtain ⟨s, hs, hline⟩ := hadd.exists_line hpos hfits
        rw [hs]
        exact ⟨now, .line hshown hdue hfits hline, hadd.files, hadd.directories, hadd.symlinks, hadd.start,
          rfl, rfl, hshown.symm⟩
      · obtain ⟨f, hf⟩ := hadd.line_broken hpos hfits
        rw [hf]
        exact ⟨last, .fault hshown hdue hfits, hadd⟩
    · rw [decide_eq_false hdue, if_neg Bool.false_ne_true]
      exact ⟨last, .quiet (.inr (not_lt.1 hdue)), hadd⟩
  · rw [Bool.not_eq_true] at hshown
    rw [hshown, Bool.not_false, if_pos rfl]
    exact ⟨last, .quiet (.inl hshown), hadd⟩

end Progress

/-! ### One visit -/

namespace Collector

variable {c : Collector b} {v : Visit}

theorem advance_eq {n : Node} (h : n.kind.isCounted = true) (p : Progress) (now : Quantity) :
    advance p now n.kind =
      p.update now (Figure.files.share b n) (Figure.directories.share b n) (Figure.symlinks.share b n) := by
  obtain ⟨kind, name, user, group, size, blocks⟩ := n
  cases kind with
  | other => cases h
  | _ => rfl

/-- What is said about a visit, with the answer of the progress. -/
def remarkOf (said : String) : Except Fault String → Remark
  | .ok line => ⟨said ++ line, none⟩
  | .error f => ⟨said, some f⟩

/-- A visit is counted in the report and in the progress. -/
theorem record_eq (h : c.progress = some p) (verbose : ℤ) (now : Quantity) (v : Visit) :
    c.record verbose now v =
      (⟨c.report.record v.node, some (advance p now v.node.kind).1⟩,
        remarkOf (remarks verbose v) (advance p now v.node.kind).2) := by
  unfold record
  rw [h]
  dsimp only
  split <;> rename_i hadvance <;> rw [hadvance] <;> rfl

/-- Counts of a progress that agree with the report before a visit agree with it afterwards. -/
theorem exists_answer (hp : c.progress = some p) (h : p.Tracks g last c.report.overall)
    (hbegun : g.start ≤ last) (hv : v.node.kind.isCounted = true) (verbose now : ℤ) :
    ∃ answer last' p', Answer g last now (c.record verbose (.whole now) v).1.report.overall answer last' ∧
      (c.record verbose (.whole now) v).1.progress = some p' ∧
      p'.Tracks g last' (c.record verbose (.whole now) v).1.report.overall ∧
      (c.record verbose (.whole now) v).2 = remarkOf (remarks verbose v) answer := by
  have hoverall : (c.report.record v.node).overall = Usage.counted v.node c.report.overall := by
    rw [Report.record_of_isCounted hv]
    rfl
  have hcounts (f : Figure) := Usage.figure_counted v.node c.report.overall f
  have hadd := h.add (hcounts .files) (hcounts .directories) (hcounts .symlinks)
  obtain ⟨last', hanswer, htracks⟩ := hadd.exists_answer hbegun now
  rw [← advance_eq hv] at hanswer htracks
  rw [record_eq hp]
  dsimp only
  rw [hoverall]
  exact ⟨_, last', _, hanswer, rfl, htracks, rfl⟩

/-- A node of another kind changes nothing. -/
theorem record_of_not_isCounted (hp : c.progress = some p) (hv : v.node.kind.isCounted = false)
    (verbose : ℤ) (now : Quantity) : c.record verbose now v = (c, ⟨remarks verbose v, none⟩) := by
  have hadvance : advance p now v.node.kind = (p, .ok "") := by
    cases hkind : v.node.kind with
    | other => rfl
    | _ => rw [hkind] at hv; cases hv
  obtain ⟨report, progress⟩ := c
  cases hp
  rw [record_eq rfl, hadvance, Report.record_of_not_isCounted hv]
  simp [remarkOf]

end Collector

end UsageLedger
