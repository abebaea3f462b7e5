/-
UsageLedger/Proofs/CommandLine/Borders.lean

Borders that are not acceptable.  A text for borders is read, or refused with a message,
unless a size in it is beyond the range of double precision and all sizes before it are
read (`Borders.parse_eq_outOfRange_iff`).

A run is refused for its borders before it looks at anything around it: its outcome is
the same whatever the files, the clock and the cluster are (`borders_accepted_or_refused`).
-/
import UsageLedger.Proofs.CommandLine.Pathwise
import UsageLedger.Proofs.Size.Borders

namespace UsageLedger.CommandLine

open Number Binary64

variable {facilities : Facilities} {o : Options} {why : Invalid}

/-! ### Runs with such borders -/

/-- Every run under the options is refused with the same message, whatever else is around it. -/
def Refuses (facilities : Facilities) (o : Options) (why : Invalid) : Prop :=
  ∀ w : Surroundings, w.facilities = facilities → run w o = .refused 2 ("Error: " ++ why.message ++ "\n")

theorem refuses_of_layout (h : layout facilities o = .error (.invalid why)) : Refuses facilities o why := by
  rintro w rfl
  unfold run
  rw [h]
  show Outcome.refused 2 ("" ++ "Error: " ++ why.message ++ "\n") = _
  rw [String.empty_append]

/-- Borders are looked at after the filter of names. -/
theorem layout_of_parse (hne : o.bucketBorders ≠ "") {f : Fault}
    (h : Borders.parse o.bucketBorders = .error f) :
    layout facilities o = match NameFilter.ofJson facilities (.text o.userFilter) with
      | .ok _ => .error f
      | .error f => .error f := by
  have hempty : o.bucketBorders.isEmpty = false := by
    rw [← Bool.not_eq_true, String.isEmpty_iff]
    exact hne
  unfold layout
  cases NameFilter.ofJson facilities (.text o.userFilter) with
  | error f => rfl
  | ok filter =>
    rw [hempty]
    show (Borders.parse o.bucketBorders >>= _) = _
    rw [h]
    rfl

/-- Refused borders refuse the run, unless the filter of names breaks it off before; where that is
acceptable, the message is the one of the borders. -/
theorem refuses_of_parse (hne : o.bucketBorders ≠ "")
    (h : Borders.parse o.bucketBorders = .error (.invalid why))
    (hrange : NameFilter.ofJson facilities (.text o.userFilter) ≠ .error .outOfRange)
    (hdepth : NameFilter.ofJson facilities (.text o.userFilter) ≠ .error .tooDeep) :
    ∃ why', Refuses facilities o why' ∧
      ∀ filter, NameFilter.ofJson facilities (.text o.userFilter) = .ok filter → why' = why := by
  have hlayout : layout facilities o = _ := layout_of_parse hne h
  cases hf : NameFilter.ofJson facilities (.text o.userFilter) with
  | ok filter =>
    rw [hf] at hlayout
    exact ⟨why, refuses_of_layout hlayout, fun _ _ => rfl⟩
  | error f =>
    rw [hf] at hlayout
    cases ofSettings_filter hf with
    | outOfRange => exact absurd hf hrange
    | tooDeep => exact absurd hf hdepth
    | invalid why' => exact ⟨why', refuses_of_layout hlayout, nofun⟩

/-- A size beyond the range breaks the run off, where the filter of names is acceptable. -/
theorem breaks_of_overflows (w : Surroundings) (o : Options) (hne : o.bucketBorders ≠ "")
    (h : Borders.Overflows o.bucketBorders) {filter : NameFilter}
    (hfilter : NameFilter.ofJson w.facilities (.text o.userFilter) = .ok filter) :
    (run w o).exit = .fault .outOfRange := by
  have hlayout : layout w.facilities o = _ :=
    layout_of_parse hne (Borders.parse_eq_outOfRange_iff.2 h)
  rw [hfilter] at hlayout
  unfold run
  rw [hlayout]
  rfl

/-! ### Sizes beyond the range -/

/-- Digits that stand for a number beyond the range. -/
theorem overflows_ofList {ds : List Char} (hne : ds ≠ [])
    (hdigits : ∀ c ∈ ds, Text.isAsciiDigit c = true) (hvalue : (overflow : ℚ) ≤ Text.digitsValue ds) :
    Borders.Overflows (String.ofList ds) := by
  have hblank (c : Char) (hc : c ∈ ds) : Text.isBlank c = false := by
    have hdigit := Text.toNat_of_isAsciiDigit (hdigits c hc)
    exact Text.not_isBlank_of_visible ⟨by omega, by omega⟩
  have hlist : (String.ofList ds).toList = ds := String.toList_ofList
  have hplain : Padded (String.ofList ds) (String.ofList ds) :=
    ⟨"", "", rfl, rfl, by rw [String.append_empty, String.empty_append]⟩
  have hspells : Size.Spells (String.ofList ds) ⟨ds, [], []⟩ 1 := by
    refine ⟨⟨.inl ⟨?_, rfl⟩, hne, hdigits, nofun, nofun⟩, rfl⟩
    rw [hplain.strip_eq (by rwa [hlist]) (by rwa [hlist]), hlist, List.append_nil]
  have hvast : Size.Vast (String.ofList ds) := by
    refine ⟨_, _, hspells, .inl ?_⟩
    rw [Size.Parts.value_of_fraction rfl]
    exact hvalue
  have hpiece : ',' ∉ (String.ofList ds).toList ∧ Text.isBlankText (String.ofList ds) = false := by
    obtain ⟨c, hc⟩ := List.exists_mem_of_ne_nil ds hne
    refine ⟨?_, hplain.not_isBlankText (by rwa [hlist]) (hblank c hc)⟩
    rw [hlist]
    intro hcomma
    cases hdigits _ hcomma
  have hsizes := Borders.sizesIn_intercalate (List.cons_ne_nil (String.ofList ds) [])
    (List.forall_mem_singleton.2 hpiece)
  rw [String.intercalate_singleton] at hsizes
  exact ⟨[], _, [], hsizes, nofun, hvast⟩

/-- A power of ten, in bytes. -/
def powerOfTen (k : ℕ) : String := String.ofList ('1' :: List.replicate k '0')

theorem overflows_powerOfTen {k : ℕ} (h : 400 ≤ k) : Borders.Overflows (powerOfTen k) := by
  refine overflows_ofList (List.cons_ne_nil _ _) (fun c hc => ?_) ?_
  · rcases List.mem_cons.1 hc with rfl | hc
    · rfl
    · rw [List.eq_of_mem_replicate hc]
      rfl
  · have hvalue : Text.digitsValue ('1' :: List.replicate k '0') = 10 ^ k := by
      have hone : Text.digitsValue ['1'] = 1 := rfl
      have hzeros := Text.digitsValue_zeros k []
      have happend := Text.digitsValue_append ['1'] (List.replicate k '0')
      rw [List.append_nil] at hzeros
      rw [hone, hzeros, List.length_replicate, Nat.one_mul] at happend
      exact happend
    rw [hvalue, Nat.cast_pow, ← zpow_natCast]
    exact overflow_le_ten_zpow (by exact_mod_cast h)

theorem powerOfTen_ne_empty (k : ℕ) : powerOfTen k ≠ "" := by
  intro h
  have hlist : ('1' :: List.replicate k '0') = [] := by
    rw [← String.toList_ofList (l := '1' :: List.replicate k '0')]
    exact congrArg String.toList h
  cases hlist

/-! ### Every text for borders -/

/-- Accepted borders: there are some, zero or above and strictly increasing, and they are the sizes of
the text in its order. -/
structure Accepted (s : String) (b : Borders) : Prop where
  parse : Borders.parse s = .ok b
  ne_nil : b.values ≠ []
  nonneg : ∀ border ∈ b.values, 0 ≤ border
  increasing : b.values.Pairwise (· < ·)
  sizes : List.Forall₂ (fun piece border => Size.parse piece = .ok border) (Borders.sizesIn s) b.values

/-- Refused borders, and with them every run for which they are given. -/
structure Refused (s : String) (why : Invalid) : Prop where
  parse : Borders.parse s = .error (.invalid why)
  run : ∀ (facilities : Facilities) (o : Options), o.bucketBorders = s → s ≠ "" →
    NameFilter.ofJson facilities (.text o.userFilter) ≠ .error .outOfRange →
    NameFilter.ofJson facilities (.text o.userFilter) ≠ .error .tooDeep →
      ∃ why', Refuses facilities o why' ∧
        ∀ filter, NameFilter.ofJson facilities (.text o.userFilter) = .ok filter → why' = why

/-- **Borders are accepted or refused**, unless a size among them is beyond the range of double
precision; then, and only then, the reading breaks off. -/
theorem borders_accepted_or_refused (s : String) :
    (Borders.parse s = .error .outOfRange ↔ Borders.Overflows s) ∧
      (¬ Borders.Overflows s → (∃ b, Accepted s b) ∨ ∃ why, Refused s why) := by
  refine ⟨Borders.parse_eq_outOfRange_iff, fun hs => ?_⟩
  cases hparse : Borders.parse s with
  | ok b =>
    exact .inl ⟨b, hparse, b.ne_nil, fun border => Borders.nonneg_of_mem, b.increasing,
      Borders.parse_eq_ok_iff.1 hparse⟩
  | error f =>
    rcases fault_of_borders hparse with rfl | ⟨why, rfl⟩
    · exact absurd (Borders.parse_eq_outOfRange_iff.1 hparse) hs
    · refine .inr ⟨why, hparse, ?_⟩
      rintro facilities o rfl hne hrange hdepth
      exact refuses_of_parse hne hparse hrange hdepth

/-- One border twice is refused. -/
theorem borders_refused_twice :
    ¬ Borders.Overflows "1KiB,1024" ∧
      ∀ w, run w { Options.viewing with bucketBorders := "1KiB,1024" } =
        .refused 2 "Error: Bucket borders must be strictly increasing: 1024 >= 1024\n" := by
  have hsizes : Borders.sizesIn "1KiB,1024" = ["1KiB", "1024"] := by decide +kernel
  have hread : ["1KiB", "1024"].mapM Size.parse = .ok [1024, 1024] :=
    mapM_eq_ok_iff.2 (.cons (by decide +kernel) (.cons (by decide +kernel) .nil))
  have hparse : Borders.parse "1KiB,1024" = .error (.invalid (.borderOrder 1024 1024)) := by
    rw [Borders.parse_eq, hsizes, hread]
    rfl
  have hoverflows : ¬ Borders.Overflows "1KiB,1024" := by
    rw [← (borders_accepted_or_refused _).1, hparse]
    exact nofun
  refine ⟨hoverflows, fun w => ?_⟩
  rcases (borders_accepted_or_refused _).2 hoverflows with ⟨b, hb⟩ | ⟨why, hwhy⟩
  · rw [hb.parse] at hparse
    cases hparse
  · rw [hwhy.parse] at hparse
    cases hparse
    obtain ⟨why', hrun, hsame⟩ := hwhy.run w.facilities
      { Options.viewing with bucketBorders := "1KiB,1024" } rfl (by decide) nofun nofun
    rw [hrun w rfl, hsame .all rfl]
    rfl

/-- **Borders beyond the range of double precision are not refused.**  The run breaks off instead. -/
theorem run_broken_by_vast_border :
    Borders.parse (powerOfTen 400) = .error .outOfRange ∧
      ∀ w, (run w { Options.viewing with bucketBorders := powerOfTen 400 }).exit =
        .fault .outOfRange := by
  have hoverflows := overflows_powerOfTen (k := 400) le_rfl
  have hall (w : Surroundings) :
      NameFilter.ofJson w.facilities (.text Options.viewing.userFilter) = .ok .all := rfl
  exact ⟨Borders.parse_eq_outOfRange_iff.2 hoverflows, fun w => breaks_of_overflows w
    { Options.viewing with bucketBorders := powerOfTen 400 } (powerOfTen_ne_empty 400) hoverflows (hall w)⟩

end UsageLedger.CommandLine
