/-
UsageLedger/Proofs/Progress/Readings.lean

A progress under a clock that shows readings.  Whatever time lies between two readings,
it has a text (`Elapsed.exists_text_of_inRange`), and so many nodes per second of it, if
their number is in the range of double precision (`Progress.exists_rate`).  So each line of
a progress can be written, as long as no more nodes than that are counted
(`Progress.Readable.update`).
-/
import UsageLedger.Proofs.Number.Finite
import UsageLedger.Progress

namespace UsageLedger

open Number

variable {now q : Quantity}

/-! ### Texts about times -/

namespace Elapsed

open Binary64

/-- A time from a minute on has hours, minutes and seconds. -/
theorem exists_ofReal? {x : Binary64} {v : ℚ} (h : IsFinite x v) (h₀ : 0 ≤ v) :
    ∃ c, Clock.ofReal? x = some c := by
  obtain ⟨hours, hhours⟩ := h.exists_truncate?_floorDiv (d := 3600) h₀ (by decide) (by decide)
  obtain ⟨rest, hrest, hrest₀, -⟩ := h.exists_modulo (d := 3600) (by decide) (by decide)
  obtain ⟨minutes, hminutes⟩ := hrest.exists_truncate?_floorDiv (d := 60) hrest₀ (by decide) (by decide)
  obtain ⟨last, hlast, -⟩ := hrest.exists_modulo (d := 60) (by decide) (by decide)
  obtain ⟨seconds, hseconds⟩ := hlast.exists_truncate?
  exact ⟨⟨hours, minutes, seconds⟩, by simp only [Clock.ofReal?, hhours, hminutes, hseconds]; rfl⟩

/-- A time in the range has a text. -/
theorem exists_text_of_inRange (h : q.InRange) : ∃ s, text q = .ok s := by
  obtain ⟨total, htotal⟩ := h.exists_fixed? 1
  have hseconds : seconds q = .ok (total ++ "s") := by rw [seconds, htotal]
  unfold text
  rw [hseconds]
  split
  · exact ⟨_, rfl⟩
  · rename_i hminute
    have hclock : ∃ c, Clock.ofQuantity? q = some c := by
      cases q with
      | whole n => exact ⟨_, rfl⟩
      | real x =>
        obtain ⟨v, hv, hrange⟩ := h
        rw [below_of_toRat? hv, decide_eq_true_iff, not_lt] at hminute
        exact exists_ofReal? ⟨hv, hrange⟩ (le_trans (by norm_num) hminute)
    obtain ⟨c, hc⟩ := hclock
    rw [hc]
    exact ⟨_, rfl⟩

end Elapsed

namespace Progress

theorem exists_between {earlier later : Quantity} (h : earlier.IsTime) (h' : later.IsTime) :
    ∃ q, between earlier later = .ok q ∧ q.InRange := by
  obtain ⟨q, hq, hrange⟩ := h'.exists_sub? h
  exact ⟨q, by rw [between, hq], hrange⟩

/-- Nodes per second of a whole time. -/
theorem rate_eq {elapsed : ℤ} (hpos : 0 < elapsed) (total : ℤ) :
    rate total (.whole elapsed) =
      match Binary64.ofRat false ((total : ℚ) / elapsed) with
      | .infinite _ => .error .outOfRange
      | x => .ok (x.fixed 1) := by
  have habove : (Quantity.whole elapsed).above (.whole 0) = true := by
    rw [Quantity.above_whole, decide_eq_true hpos]
  have hsign : decide (elapsed < 0) = false := decide_eq_false (by omega)
  unfold rate
  rw [habove, if_pos rfl]
  simp only [Quantity.div?, hpos.ne', if_false, hsign]
  cases Binary64.ofRat false ((total : ℚ) / elapsed) <;> rfl

theorem exists_rate_of_lt {elapsed total : ℤ} (hpos : 0 < elapsed) (h₀ : 0 ≤ total)
    (h : total < overflow * elapsed) : ∃ s, rate total (.whole elapsed) = .ok s := by
  have hden : (0 : ℚ) < elapsed := by exact_mod_cast hpos
  have hquotient₀ : (0 : ℚ) ≤ total / elapsed := div_nonneg (by exact_mod_cast h₀) hden.le
  have hquotient : (total : ℚ) / elapsed < overflow := by
    rw [div_lt_iff₀ hden]
    exact_mod_cast h
  obtain ⟨v, ⟨m, e, hx, -⟩, -⟩ := Binary64.exists_ofRat_of_lt hquotient₀ hquotient
  rw [rate_eq hpos, hx]
  exact ⟨_, rfl⟩

/-- So many nodes per second of any time in the range. -/
theorem exists_rate {total : ℤ} (hq : q.InRange) (h₀ : 0 ≤ total) (h : total < overflow) :
    ∃ s, rate total q = .ok s := by
  by_cases habove : q.above (.whole 0) = true
  · cases q with
    | whole n =>
      rw [Quantity.above_whole, decide_eq_true_iff] at habove
      exact exists_rate_of_lt habove h₀ (h.trans_le (le_mul_of_one_le_right (h₀.trans h.le) habove))
    | real x =>
      obtain ⟨v, hv, -⟩ := hq
      have hv : x.toRat? = some v := hv
      have hrange : |(total : ℚ)| < overflow := by
        rw [abs_of_nonneg (by exact_mod_cast h₀)]
        exact_mod_cast h
      obtain ⟨y, -, hy, -⟩ := Quantity.exists_toBinary64? (q := .whole total) rfl hrange
      rw [Binary64.above_of_toRat? hv, decide_eq_true_iff, Int.cast_zero] at habove
      have hzero : x.isZero = false := Binary64.isZero_eq_false hv habove
      have hdiv : (Quantity.whole total).div? (.real x) = some (y.div x) := by
        simp only [Quantity.div?, hy]
        show (if x.isZero then none else some (y.div x)) = _
        rw [hzero]
        rfl
      unfold rate
      rw [Binary64.above_of_toRat? hv, Int.cast_zero, decide_eq_true habove, if_pos rfl, hdiv]
      exact ⟨_, rfl⟩
  · unfold rate
    rw [if_neg habove]
    exact ⟨_, rfl⟩

/-! ### Lines -/

/-- A progress that has seen readings only and may count so many nodes more. -/
structure Readable (p : Progress) (more : ℕ) : Prop where
  start : p.start.IsTime
  last : p.last.IsTime
  nonneg : 0 ≤ p.total
  total_lt : p.total + more < overflow

variable {p : Progress} {more : ℕ}

theorem readable_begin (hnow : now.IsTime) (hmore : (more : ℤ) < overflow) (interval : Quantity)
    (shown : Bool) : (begin now interval shown).Readable more where
  start := hnow
  last := hnow
  nonneg := le_rfl
  total_lt := (zero_add (more : ℤ)).trans_lt hmore

theorem Readable.mono (h : p.Readable (more + 1)) : p.Readable more :=
  ⟨h.start, h.last, h.nonneg, lt_of_le_of_lt (by push_cast; omega) h.total_lt⟩

theorem Readable.exists_line (h : p.Readable more) (hnow : now.IsTime) (label : String) :
    ∃ s, p.line now label = .ok s := by
  obtain ⟨q, hq, hrange⟩ := exists_between h.start hnow
  obtain ⟨perSecond, hrate⟩ := exists_rate hrange h.nonneg (lt_of_le_of_lt (by omega) h.total_lt)
  obtain ⟨text, htext⟩ := Elapsed.exists_text_of_inRange hrange
  unfold line
  rw [hq]
  simp only [bind, Except.bind, hrate, htext]
  exact ⟨_, rfl⟩

/-- One more node is counted, with a line or without. -/
theorem Readable.update (h : p.Readable (more + 1)) (hnow : now.IsTime) {files directories symlinks : ℤ}
    (hone : files + directories + symlinks = 1) :
    (p.update now files directories symlinks).1.Readable more ∧
      ∃ s, (p.update now files directories symlinks).2 = .ok s := by
  have htotal : (p.add files directories symlinks).total = p.total + 1 := by
    simp only [add, total]
    omega
  have hadd : (p.add files directories symlinks).Readable more := by
    have hnonneg := h.nonneg
    have hlt := h.total_lt
    push_cast at hlt
    exact ⟨h.start, h.last, by omega, lt_of_le_of_lt (by omega) hlt⟩
  obtain ⟨q, hq, -⟩ := exists_between hadd.last hnow
  obtain ⟨line, hline⟩ := hadd.exists_line hnow ""
  unfold Progress.update
  dsimp only
  split
  · exact ⟨hadd, _, rfl⟩
  · rw [hq]
    dsimp only
    split
    · rw [hline]
      exact ⟨⟨hadd.start, hnow, hadd.nonneg, hadd.total_lt⟩, line, rfl⟩
    · exact ⟨hadd, _, rfl⟩

theorem Readable.exists_final (h : p.Readable more) (hnow : now.IsTime) :
    ∃ s, p.final now = .ok s := by
  unfold final
  split
  · obtain ⟨s, hs⟩ := h.exists_line hnow "FINAL: "
    exact ⟨s ++ "\n", by rw [hs]; rfl⟩
  · exact ⟨"", rfl⟩

end Progress

end UsageLedger
