/-
UsageLedger/Proofs/Tuning/RoundTrip.lean

A tuning profile that is kept in a file gives the settings that were recommended.

What is recommended for a machine lies between the floors and the ceilings of a style, so
it is positive and short, whatever the machine says of its open files
(`Recommendation.Within.moderate`).  A profile with it is written and read without loss
(`loadProfile?_profileOf`), and each of its recommendations takes the place of a standard
setting (`ofProfile_profileOf`).
-/
import Mathlib.Algebra.Order.Group.Int
import UsageLedger.Proofs.Json.RoundTrip
import UsageLedger.Proofs.Tuning.Effective
import UsageLedger.Proofs.Tuning.Recommended

namespace UsageLedger.Tuning

variable {m : Machine} {r : Recommendation} {s : Style} {openFiles : ℤ} {style created : String}

/-! ### Machines and what is recommended for them -/

/-- A machine that can be measured: not vastly many processors, and a number of open files of 64 bits
if it tells one. -/
structure Machine.Measured (m : Machine) : Prop where
  cpus : m.cpus ≤ 2 ^ 50
  openFiles : ∀ n ∈ m.openFiles?, n.natAbs ≤ 2 ^ 64

theorem Machine.Measured.natAbs_openFiles_le (h : m.Measured) : m.openFiles.natAbs ≤ 2 ^ 64 := by
  unfold Machine.openFiles
  cases hfiles : m.openFiles? with
  | none =>
    rw [Option.getD_none]
    split <;> decide
  | some n => exact h.openFiles n hfiles

/-- A recommendation of positive numbers that are not vast. -/
structure Recommendation.Moderate (r : Recommendation) : Prop where
  workers : 0 < r.workers ∧ r.workers.natAbs ≤ 2 ^ 64
  requests : 0 < r.requests ∧ r.requests.natAbs ≤ 2 ^ 64
  connections : 0 < r.connections ∧ r.connections.natAbs ≤ 2 ^ 64

theorem Style.ceilings_le (s : Style) : s.workerCeiling ≤ 64 ∧ s.requestCeiling ≤ 500 := by
  cases s <;> decide

theorem Recommendation.Within.moderate (h : r.Within s openFiles) : r.Moderate := by
  obtain ⟨hworkers, hrequests⟩ := s.ceilings_le
  have hleast := h.workers
  have hrequired := h.requests
  have hsame := h.connections
  exact ⟨by omega, by omega, by omega⟩

/-- In every style there is a recommendation for the machine. -/
theorem Machine.Measured.exists_moderate (h : m.Measured) (s : Style) :
    ∃ r, recommend s m.cpus m.openFiles = .ok r ∧ r.Moderate := by
  have hcpus : (m.cpus : ℤ) ≤ 2 ^ 50 := by exact_mod_cast h.cpus
  obtain ⟨r, hr, hwithin⟩ := exists_within s (Int.natCast_nonneg _) hcpus m.openFiles
  exact ⟨r, hr, hwithin.moderate⟩

/-! ### Profiles in files -/

/-- The profile of a recommendation. -/
def profileOf (m : Machine) (r : Recommendation) (style created : String) : Json :=
  .object
    [ ("version", .int version), ("created", .text created), ("platform", m.toJson),
      ("recommended", r.toJson), ("profile", .text style) ]

theorem profile_eq (h : recommend (.ofName style) m.cpus m.openFiles = .ok r) (created : String) :
    profile m style created = .ok (profileOf m r style created) := by
  rw [profile, h]
  rfl

theorem plain_machine (h : m.Measured) : m.toJson.Plain 1 := by
  have hcpus : (m.cpus : ℤ).natAbs ≤ 2 ^ 64 := by
    have := h.cpus
    omega
  refine .object (show ["os", "cpu_count", "fd_limit"].Nodup by decide) ?_
  simp only [List.forall_mem_cons]
  exact ⟨.text 0 _, .int 0 (Json.small_of_natAbs_le hcpus),
    .int 0 (Json.small_of_natAbs_le h.natAbs_openFiles_le), fun _ hv => absurd hv List.not_mem_nil⟩

theorem plain_recommendation (h : r.Moderate) : r.toJson.Plain 1 := by
  refine .object (show names.Nodup by decide) ?_
  simp only [List.forall_mem_cons]
  exact ⟨.int 0 (Json.small_of_natAbs_le h.workers.2), .int 0 (Json.small_of_natAbs_le h.requests.2),
    .int 0 (Json.small_of_natAbs_le h.connections.2), fun _ hv => absurd hv List.not_mem_nil⟩

/-- A profile can be written and read. -/
theorem plain_profileOf (hm : m.Measured) (hr : r.Moderate) (style created : String) :
    (profileOf m r style created).Plain 2 := by
  refine .object (show ["version", "created", "platform", "recommended", "profile"].Nodup by decide) ?_
  simp only [List.forall_mem_cons]
  exact ⟨.int 1 (Json.small_of_natAbs_le (by decide)), .text 1 _, plain_machine hm,
    plain_recommendation hr, .text 1 _, fun _ hv => absurd hv List.not_mem_nil⟩

/-- A profile that is kept in a file is loaded from it. -/
theorem loadProfile?_profileOf (hm : m.Measured) (hr : r.Moderate) (style created : String) :
    loadProfile? (.ofText (profileOf m r style created).indented) = some (profileOf m r style created) := by
  have hplain := (plain_profileOf hm hr style created).mono (show 2 ≤ 1024 by decide)
  rw [loadProfile?, FileState.json?_indented hplain]
  rfl

/-! ### Settings from profiles -/

/-- A setting that is recommended. -/
def Setting.ofInt (n : ℤ) (h : 0 < n) : Setting := ⟨.int n, n, rfl, h⟩

theorem Setting.ofJson?_int {n : ℤ} (h : 0 < n) : Setting.ofJson? (.int n) = some (.ofInt n h) := by
  show (if positive : 0 < n then _ else none) = _
  rw [dif_pos h]
  rfl

/-- Every recommendation becomes a setting. -/
theorem ofProfile_profileOf (h : r.Moderate) (style created : String) :
    Settings.ofProfile (profileOf m r style created) =
      .ok ⟨.ofInt r.workers h.workers.1, .ofInt r.requests h.requests.1,
        .ofInt r.connections h.connections.1⟩ := by
  show Except.ok (((Settings.standard.override "max_workers" _).override "max_concurrent" _).override
    "connector_limit" _) = _
  simp [Settings.override, Setting.ofJson?_int, h.workers.1, h.requests.1, h.connections.1]

/-- **A profile that is kept gives what was recommended.**  Under any name, the profile of a machine is
made, is loaded from its file as it was made, and gives as settings the recommendation for the
machine: none of the standard settings is left. -/
theorem profile_kept (hm : m.Measured) (style created : String) :
    ∃ r p s, recommend (.ofName style) m.cpus m.openFiles = .ok r ∧
      profile m style created = .ok p ∧
      loadProfile? (.ofText p.indented) = some p ∧
      Settings.ofProfile p = .ok s ∧
      .object (s.named.map fun e => (e.1, e.2.given)) = r.toJson := by
  obtain ⟨r, hr, hmoderate⟩ := hm.exists_moderate (.ofName style)
  exact ⟨r, profileOf m r style created, _, hr, profile_eq hr created,
    loadProfile?_profileOf hm hmoderate style created, ofProfile_profileOf hmoderate style created, rfl⟩

/-- A machine with six processors that does not tell how many files may be open. -/
def sixProcessors : Machine := ⟨"linux", some 6, none, none⟩

/-- The processors of the machine would do for more requests than there are open files to count on. -/
theorem profile_kept_fewFiles :
    sixProcessors.Measured ∧
      ∃ p s, profile sixProcessors "aggressive" "2024-05-01T10:00:00+00:00" = .ok p ∧
        loadProfile? (.ofText p.indented) = some p ∧
        Settings.ofProfile p = .ok s ∧
        .object (s.named.map fun e => (e.1, e.2.given)) = (⟨18, 206, 206⟩ : Recommendation).toJson := by
  have hm : sixProcessors.Measured := ⟨by decide, by simp [sixProcessors]⟩
  obtain ⟨r, p, s, hr, hp, hloaded, hs, hsame⟩ :=
    profile_kept hm "aggressive" "2024-05-01T10:00:00+00:00"
  have hmade : recommend (.ofName "aggressive") sixProcessors.cpus sixProcessors.openFiles =
      .ok ⟨18, 206, 206⟩ := by decide +kernel
  obtain rfl : r = ⟨18, 206, 206⟩ := Except.ok.inj (hr.symm.trans hmade)
  exact ⟨hm, p, s, hp, hloaded, hs, hsame⟩

end UsageLedger.Tuning

namespace UsageLedger.CommandLine

open Tuning

/-! ### Runs that keep a profile -/

/-- What a run that keeps a profile writes. -/
theorem written_tune {w : Surroundings} {s : Style} {r : Recommendation}
    (hwritable : w.writable w.profilePath = true)
    (hr : recommend (.ofName s.name) w.machine.cpus w.machine.openFiles = .ok r) :
    (tune w s).written = [(w.profilePath, (profileOf w.machine r s.name w.date).indented)] := by
  rw [tune, profile_eq hr, hwritable]
  rfl

/-- A profile in its file gives the settings of a run. -/
theorem settingsIn_profileOf {m : Machine} {r : Recommendation} (hm : m.Measured) (h : r.Moderate)
    (style created : String) :
    settingsIn (.ofText (profileOf m r style created).indented) =
      .ok ⟨.ofInt r.workers h.workers.1, .ofInt r.requests h.requests.1,
        .ofInt r.connections h.connections.1⟩ := by
  rw [settingsIn, loadProfile?_profileOf hm h, Option.getD_some]
  exact ofProfile_profileOf h style created

/-- **The run after one that keeps a profile** has the settings that were recommended. -/
theorem settingsIn_after_tune {w : Surroundings} (hm : w.machine.Measured)
    (hwritable : w.writable w.profilePath = true) (s : Style) :
    ∃ r content settings, recommend (.ofName s.name) w.machine.cpus w.machine.openFiles = .ok r ∧
      (tune w s).written = [(w.profilePath, content)] ∧
      settingsIn (.ofText content) = .ok settings ∧
      .object (settings.named.map fun e => (e.1, e.2.given)) = r.toJson := by
  obtain ⟨r, hr, hmoderate⟩ := hm.exists_moderate (.ofName s.name)
  exact ⟨r, _, _, hr, written_tune hwritable hr, settingsIn_profileOf hm hmoderate s.name w.date, rfl⟩

end UsageLedger.CommandLine
