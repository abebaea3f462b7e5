/-
UsageLedger/Proofs/Tuning/Recommended.lean

Recommended settings stay within their bounds and keep the order of machines and styles.

What a style takes of a number of things is rounded twice: the number when it becomes a
double, and its product with the factor of the style, which is itself a rounded number
(`Takes`).  Rounding keeps the order, and so does dropping the fraction, so more things
or a more demanding style never come to less (`Takes.mono`).  The bounds that follow keep
the order too, because the ceilings grow with the style and the floors are the same for
all (`recommend_mono`).
-/
import UsageLedger.Proofs.Number.Rounded
import UsageLedger.Tuning.Recommendation

namespace UsageLedger.Tuning

open Number Binary64

variable {s s' : Style} {amount amount' n n' cpus cpus' openFiles openFiles' : ℤ}

/-! ### Styles -/

namespace Style

/-- The share of a style, which its factor is nearest to. -/
def share : Style → ℚ
  | conservative => 4 / 5
  | balanced => 1
  | aggressive => 3 / 2

/-- A style is as demanding as another one, or more. -/
structure AtMost (s s' : Style) : Prop where
  share : s.share ≤ s'.share
  workers : s.workerCeiling ≤ s'.workerCeiling
  requests : s.requestCeiling ≤ s'.requestCeiling

theorem AtMost.refl (s : Style) : s.AtMost s := ⟨le_rfl, le_rfl, le_rfl⟩

theorem conservative_atMost : conservative.AtMost balanced :=
  ⟨by norm_num [Style.share], by decide, by decide⟩

theorem balanced_atMost : balanced.AtMost aggressive :=
  ⟨by norm_num [Style.share], by decide, by decide⟩

/-- A style goes by a name: its own one, or, if it is the balanced one, any name that no style has. -/
def GoesBy (s : Style) (name : String) : Prop :=
  s.name = name ∨ s = balanced ∧ ∀ s' : Style, s'.name ≠ name

theorem goesBy_ofName (name : String) : (ofName name).GoesBy name := by
  unfold ofName
  cases hfound : all.find? fun s => s.name == name with
  | some s => exact .inl (eq_of_beq (List.find?_some hfound :))
  | none =>
    refine .inr ⟨rfl, fun s' hname => ?_⟩
    have hmem : s' ∈ all := by cases s' <;> decide
    exact absurd (beq_iff_eq.2 hname) (List.find?_eq_none.1 hfound s' hmem)

theorem share_nonneg (s : Style) : 0 ≤ s.share := by
  cases s <;> norm_num [share]

theorem share_le (s : Style) : s.share ≤ 3 / 2 := by
  cases s <;> norm_num [share]

/-- The ceilings are above the floors. -/
theorem ceilings (s : Style) : 2 ≤ s.workerCeiling ∧ 25 ≤ s.requestCeiling := by
  cases s <;> decide

/-- The factor of a style is the number nearest to its share. -/
theorem exists_factor (s : Style) : ∃ f, HasValue s.factor f ∧ IsNearest f s.share := by
  obtain ⟨num, den, hd, hfactor, hshare⟩ :
      ∃ num den : ℕ, den ≠ 0 ∧ s.factor = nearest false num den ∧ s.share = num / den := by
    cases s with
    | conservative => exact ⟨4, 5, by decide, rfl, by norm_num [share]⟩
    | balanced => exact ⟨1, 1, by decide, rfl, by norm_num [share]⟩
    | aggressive => exact ⟨3, 2, by decide, rfl, by norm_num [share]⟩
  have htwo : IsDouble 2 := by exact_mod_cast isDouble_natCast (n := 2) (by norm_num)
  have hle := s.share_le
  rw [hfactor, hshare]
  rw [hshare] at hle
  exact exists_nearest_of_lt hd (lt_trans (by linarith) htwo.lt_overflow)

end Style

/-! ### Shares of an amount -/

/-- What a style takes of an amount: the amount and the share are rounded, then their product, and the
fraction is dropped. -/
structure Takes (s : Style) (amount n : ℤ) : Prop where
  rounded : ∃ v f w : ℚ, IsNearest v amount ∧ IsNearest f s.share ∧ IsNearest w (v * f) ∧ n = ⌊w⌋

/-- **A more demanding style takes no less**, of an amount that is no less. -/
theorem Takes.mono (h : Takes s amount n) (h' : Takes s' amount' n') (hs : s.AtMost s')
    (hamount : amount ≤ amount') : n ≤ n' := by
  obtain ⟨v, f, w, hv, hf, hw, rfl⟩ := h.rounded
  obtain ⟨v', f', w', hv', hf', hw', rfl⟩ := h'.rounded
  have hle : v ≤ v' := hv.mono hv' (by exact_mod_cast hamount)
  have hfactor : f ≤ f' := hf.mono hf' hs.share
  have hproduct : v * f ≤ v' * f' :=
    mul_le_mul hle hfactor hf.isDouble.nonneg hv'.isDouble.nonneg
  exact Int.floor_le_floor (hw.mono hw' hproduct)

/-- A whole number becomes the double nearest to it. -/
theorem exists_ofInt?_of_lt (h₀ : 0 ≤ amount) (h : (amount : ℚ) < overflow) :
    ∃ x v, ofInt? amount = some x ∧ HasValue x v ∧ IsNearest v amount := by
  obtain ⟨n, rfl⟩ := Int.eq_ofNat_of_zero_le h₀
  have hone : (n : ℚ) / (1 : ℕ) = (n : ℤ) := by push_cast; exact div_one _
  rw [← hone] at h ⊢
  obtain ⟨v, hv, hnearest⟩ := exists_nearest_of_lt one_ne_zero h
  refine ⟨nearest false n 1, v, ?_, hv, hnearest⟩
  obtain ⟨m, e, hfinite, -⟩ := hv
  have hsign : decide ((n : ℤ) < 0) = false := decide_eq_false (by omega)
  rw [ofInt?, Int.natAbs_natCast, hsign, hfinite]

/-- What a style takes of an amount that is not vast is a whole number. -/
theorem exists_scaled (s : Style) (cpus each : ℤ) (h₀ : 0 ≤ cpus * each) (h : cpus * each ≤ 2 ^ 60) :
    ∃ n, scaled s cpus each = .ok n ∧ Takes s (cpus * each) n := by
  have hvast : IsDouble (2 ^ 63) := ⟨1, 63, by norm_num, by norm_num, by norm_num, by norm_num⟩
  have hamount : ((cpus * each : ℤ) : ℚ) ≤ 2 ^ 60 := by exact_mod_cast h
  have hamount₀ : (0 : ℚ) ≤ (cpus * each : ℤ) := by exact_mod_cast h₀
  have hrange : ((cpus * each : ℤ) : ℚ) < overflow :=
    hamount.trans_lt (lt_trans (by norm_num) hvast.lt_overflow)
  obtain ⟨x, v, hx, hv, hnearest⟩ := exists_ofInt?_of_lt h₀ hrange
  obtain ⟨f, hf, hshare⟩ := s.exists_factor
  -- Rounding at most doubles a number, so the product is far from the end of the range.
  have hv₂ : v ≤ 2 * 2 ^ 60 := (hnearest.le_two_mul hamount₀).trans (by linarith)
  have hf₂ : f ≤ 2 * (3 / 2) := (hshare.le_two_mul s.share_nonneg).trans (by linarith [s.share_le])
  have hproduct₀ : 0 ≤ v * f := mul_nonneg hnearest.isDouble.nonneg hshare.isDouble.nonneg
  have hproduct : v * f < overflow := by
    refine lt_of_le_of_lt ?_ hvast.lt_overflow
    calc v * f ≤ 2 * 2 ^ 60 * (2 * (3 / 2)) :=
          mul_le_mul hv₂ hf₂ hshare.isDouble.nonneg (by norm_num)
      _ ≤ 2 ^ 63 := by norm_num
  obtain ⟨w, hw, hrounded⟩ := exists_ofRat_of_lt hproduct₀ hproduct
  refine ⟨⌊w⌋, ?_, ⟨v, f, w, hnearest, hshare, hrounded, rfl⟩⟩
  rw [scaled, hx, Option.bind_some, hv.mul_eq hf, hw.truncate?]

/-! ### Recommendations -/

/-- A recommendation is no higher than another one. -/
structure Recommendation.AtMost (r r' : Recommendation) : Prop where
  workers : r.workers ≤ r'.workers
  requests : r.requests ≤ r'.requests
  connections : r.connections ≤ r'.connections

/-- A recommendation stays between the floors and the ceilings of a style, has a connection for each
request, and leaves the spare files to other purposes if there are enough of them. -/
structure Recommendation.Within (r : Recommendation) (s : Style) (openFiles : ℤ) : Prop where
  workers : 2 ≤ r.workers ∧ r.workers ≤ s.workerCeiling
  requests : 25 ≤ r.requests ∧ r.requests ≤ s.requestCeiling
  connections : r.connections = r.requests
  spare : 75 ≤ openFiles → r.requests ≤ openFiles - 50

/-- The number of processors of a machine for which settings are recommended. -/
def Realistic (cpus : ℤ) : Prop := 1 ≤ cpus ∧ cpus < 2 ^ 50

/-- What a recommendation is made of: shares of the workers and requests that the processors would
have, brought between floor and ceiling. -/
theorem exists_recommend (s : Style) (h₀ : 0 ≤ cpus) (h : cpus ≤ 2 ^ 50) (openFiles : ℤ) :
    ∃ workers requests, Takes s (cpus * 2) workers ∧ Takes s (cpus * 50) requests ∧
      recommend s cpus openFiles = .ok
        ⟨min (max 2 workers) s.workerCeiling,
          min (min (max 25 requests) s.requestCeiling) (max 25 (openFiles - 50)),
          min (min (max 25 requests) s.requestCeiling) (max 25 (openFiles - 50))⟩ := by
  obtain ⟨workers, hworkers, htwo⟩ := exists_scaled s cpus 2 (by omega) (by omega)
  obtain ⟨requests, hrequests, hfifty⟩ := exists_scaled s cpus 50 (by omega) (by omega)
  refine ⟨workers, requests, htwo, hfifty, ?_⟩
  rw [recommend, hworkers, hrequests]
  rfl

/-- **More demanding styles and larger machines** are recommended no less. -/
theorem recommend_mono (hs : s.AtMost s') (hcpus : Realistic cpus) (hcpus' : Realistic cpus')
    (hle : cpus ≤ cpus') (hfiles : openFiles ≤ openFiles') :
    ∃ r r', recommend s cpus openFiles = .ok r ∧ recommend s' cpus' openFiles' = .ok r' ∧
      r.AtMost r' := by
  obtain ⟨workers, requests, hworkers, hrequests, hr⟩ :=
    exists_recommend s (by have := hcpus.1; omega) hcpus.2.le openFiles
  obtain ⟨workers', requests', hworkers', hrequests', hr'⟩ :=
    exists_recommend s' (by have := hcpus'.1; omega) hcpus'.2.le openFiles'
  have hworkersle : workers ≤ workers' := hworkers.mono hworkers' hs (by omega)
  have hrequestsle : requests ≤ requests' := hrequests.mono hrequests' hs (by omega)
  have hrequestsle : min (min (max 25 requests) s.requestCeiling) (max 25 (openFiles - 50)) ≤
      min (min (max 25 requests') s'.requestCeiling) (max 25 (openFiles' - 50)) :=
    min_le_min (min_le_min (max_le_max le_rfl hrequestsle) hs.requests) (max_le_max le_rfl (by omega))
  exact ⟨_, _, hr, hr', min_le_min (max_le_max le_rfl hworkersle) hs.workers, hrequestsle, hrequestsle⟩

theorem exists_within (s : Style) (h₀ : 0 ≤ cpus) (h : cpus ≤ 2 ^ 50) (openFiles : ℤ) :
    ∃ r, recommend s cpus openFiles = .ok r ∧ r.Within s openFiles := by
  obtain ⟨workers, requests, -, -, hr⟩ := exists_recommend s h₀ h openFiles
  obtain ⟨hworkers, hrequests⟩ := s.ceilings
  refine ⟨_, hr, ?_, ?_, rfl, fun hfiles => ?_⟩
  all_goals dsimp only
  · omega
  · omega
  · omega

/-- What is recommended under the name of a style: it is within the bounds of that style, and it does
not decrease when there are more processors or open files. -/
structure Recommended (name : String) (cpus openFiles : ℤ) (r : Recommendation) : Prop where
  made : recommend (.ofName name) cpus openFiles = .ok r
  within : r.Within (.ofName name) openFiles
  grows : ∀ cpus' openFiles', cpus ≤ cpus' → cpus' < 2 ^ 50 → openFiles ≤ openFiles' →
    ∃ r', recommend (.ofName name) cpus' openFiles' = .ok r' ∧ r.AtMost r'

/-- The three styles recommend for a machine in the order of their demands. -/
def InOrder (cpus openFiles : ℤ) : Prop :=
  ∃ low middle high, recommend .conservative cpus openFiles = .ok low ∧
    recommend .balanced cpus openFiles = .ok middle ∧
    recommend .aggressive cpus openFiles = .ok high ∧ low.AtMost middle ∧ middle.AtMost high

theorem inOrder (hcpus : Realistic cpus) (openFiles : ℤ) : InOrder cpus openFiles := by
  obtain ⟨low, middle, hlow, hmiddle, hle⟩ :=
    recommend_mono Style.conservative_atMost hcpus hcpus le_rfl (le_refl openFiles)
  obtain ⟨middle', high, hmiddle', hhigh, hle'⟩ :=
    recommend_mono Style.balanced_atMost hcpus hcpus le_rfl (le_refl openFiles)
  obtain rfl : middle = middle' := Except.ok.inj (hmiddle.symm.trans hmiddle')
  exact ⟨low, middle, high, hlow, hmiddle, hhigh, hle, hle'⟩

/-- **Recommendations are bounded and monotone**, for every name and every machine. -/
theorem recommended_bounded_monotone (name : String) (cpus openFiles : ℤ) (hone : 1 ≤ cpus)
    (hlt : cpus < 2 ^ 50) :
    (Style.ofName name).GoesBy name ∧ (∃ r, Recommended name cpus openFiles r) ∧
      InOrder cpus openFiles := by
  have hcpus : Realistic cpus := ⟨hone, hlt⟩
  obtain ⟨r, hr, hwithin⟩ := exists_within (.ofName name) (by omega) hlt.le openFiles
  refine ⟨Style.goesBy_ofName name, ⟨r, hr, hwithin, ?_⟩, inOrder hcpus openFiles⟩
  intro cpus' openFiles' hle hlt' hfiles
  obtain ⟨r₀, r', hr₀, hr', hatMost⟩ :=
    recommend_mono (.refl (.ofName name)) hcpus ⟨hone.trans hle, hlt'⟩ hle hfiles
  obtain rfl : r = r₀ := Except.ok.inj (hr.symm.trans hr₀)
  exact ⟨r', hr', hatMost⟩

/-- A machine with three processors and few open files, and a name that no style has. -/
theorem recommended_bounded_monotone_fewFiles :
    (1 : ℤ) ≤ 3 ∧ (3 : ℤ) < 2 ^ 50 ∧ Style.balanced.GoesBy "turbo" ∧
      Recommended "turbo" 3 80 ⟨6, 30, 30⟩ ∧ InOrder 3 80 := by
  have hone : (1 : ℤ) ≤ 3 := by decide
  have hlt : (3 : ℤ) < 2 ^ 50 := by decide
  obtain ⟨hname, ⟨r, hr⟩, hstyles⟩ := recommended_bounded_monotone "turbo" 3 80 hone hlt
  have hmade : recommend (.ofName "turbo") 3 80 = .ok ⟨6, 30, 30⟩ := by decide +kernel
  obtain rfl : r = ⟨6, 30, 30⟩ := Except.ok.inj (hr.made.symm.trans hmade)
  exact ⟨hone, hlt, hname, hr, hstyles⟩

end UsageLedger.Tuning
