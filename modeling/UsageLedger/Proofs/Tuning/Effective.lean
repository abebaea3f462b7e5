/-
UsageLedger/Proofs/Tuning/Effective.lean

The settings in use, whatever stands in the file of the tuning profile.  There are three
of them, under fixed names, and each is positive.  A setting is the recommended one if
the file holds a profile of the version in use that recommends a positive whole number
for it, and the standard one otherwise (`settingsIn_any_file`).

The recommendations have to be an object.  A profile in which they are something else
passes as one, for only the presence of its members is looked at, and then breaks off
every run.
-/
import UsageLedger.CommandLine.Run
import UsageLedger.Proofs.Json.Keyed

namespace UsageLedger

namespace Tuning

variable {name : String} {profile v : Json} {recommended : Catalog String Json}

/-! ### Settings by name -/

/-- The settings under their names. -/
def Settings.named (s : Settings) : Catalog String Setting :=
  [("max_workers", s.workers), ("max_concurrent", s.requests), ("connector_limit", s.connections)]

/-- The names of the settings. -/
def names : List String := ["max_workers", "max_concurrent", "connector_limit"]

/-- A setting that is given takes its place in the table if its name is one of the names. -/
theorem Settings.named_override (s : Settings) {given : String} {x : Setting}
    (hx : Setting.ofJson? v = some x) :
    (s.override given v).named = if given ∈ names then s.named.put given x else s.named := by
  unfold Settings.override
  rw [hx]
  dsimp only
  by_cases hworkers : given = "max_workers"
  · simp [hworkers, names, Settings.named, Catalog.put]
  by_cases hrequests : given = "max_concurrent"
  · simp [hrequests, names, Settings.named, Catalog.put]
  by_cases hconnections : given = "connector_limit"
  · simp [hconnections, names, Settings.named, Catalog.put]
  simp [hworkers, hrequests, hconnections, names]

/-- A setting that is given counts under its own name only. -/
theorem Settings.find?_override (s : Settings) (given : String) (v : Json) (hname : name ∈ names) :
    (s.override given v).named.find? name =
      if given = name then (Setting.ofJson? v).or (s.named.find? name) else s.named.find? name := by
  cases hx : Setting.ofJson? v with
  | none =>
    unfold Settings.override
    rw [hx, Option.none_or, ite_self]
  | some x =>
    rw [s.named_override hx, Option.some_or]
    by_cases hgiven : given = name
    · rw [if_pos (hgiven ▸ hname), Catalog.find?_put]
    · rw [if_neg hgiven]
      split
      · rw [Catalog.find?_put, if_neg hgiven]
      · rfl

/-- Recommendations take the place of the settings under their names. -/
theorem Settings.find?_foldl_override (hkeys : recommended.keys.Nodup) (s : Settings)
    (hname : name ∈ names) :
    (recommended.foldl (fun s e => s.override e.1 e.2) s).named.find? name =
      ((recommended.find? name).bind Setting.ofJson?).or (s.named.find? name) := by
  induction recommended generalizing s with
  | nil => rfl
  | cons e rest ih =>
    obtain ⟨given, v⟩ := e
    obtain ⟨hnew, hrest⟩ := List.nodup_cons.1 hkeys
    rw [List.foldl_cons, ih hrest, Settings.find?_override s given v hname]
    rw [Catalog.find?]
    split
    · -- No later recommendation has this name.
      rename_i hgiven
      subst hgiven
      have hnone : Catalog.find? given rest = none := by
        rw [← Option.not_isSome_iff_eq_none, Catalog.find?_isSome_iff]
        exact hnew
      rw [hnone]
      rfl
    · rfl

/-! ### Profiles -/

/-- What a profile recommends. -/
def recommended? : Json → Option Json
  | .object members => Catalog.find? "recommended" members
  | _ => none

/-- The standard settings with what is recommended in their place. -/
def overlay (recommended : Catalog String Json) : Settings :=
  recommended.foldl (fun s e => s.override e.1 e.2) .standard

theorem ofProfile_of_isProfile (h : isProfile profile = true) :
    ∃ v, recommended? profile = some v ∧ Settings.ofProfile profile = v.members.map overlay := by
  cases profile with
  | object members =>
    unfold isProfile at h
    rw [Bool.and_eq_true, List.all_eq_true] at h
    have hhas : Catalog.has "recommended" members = true := h.2 "recommended" (by simp)
    obtain ⟨v, hv⟩ := Option.isSome_iff_exists.1 hhas
    have hpresent : (Json.object members).isPresent = true := by
      cases members with
      | nil => cases hv
      | cons => rfl
    have hmember : (Json.object members).memberOr "recommended" (.object []) = .ok v := by
      show Except.ok ((Catalog.find? "recommended" members).getD _) = _
      rw [hv]
      rfl
    refine ⟨v, hv, ?_⟩
    unfold Settings.ofProfile
    rw [hpresent, hmember]
    cases v <;> rfl
  | _ => cases h

/-- What the profile in a file recommends; without a profile it is nothing. -/
def recommendations (state : FileState) : Json :=
  ((loadProfile? state).bind recommended?).getD (.object [])

theorem keyed_recommendations (state : FileState) : (recommendations state).Keyed := by
  have hnothing : (Json.object []).Keyed := .object .nil (fun _ hv => absurd hv List.not_mem_nil)
  unfold recommendations
  cases hv : (loadProfile? state).bind recommended? with
  | none => exact hnothing
  | some v =>
    obtain ⟨profile, hprofile, hrecommended⟩ := Option.bind_eq_some_iff.1 hv
    have hkeyed := FileState.keyed_of_json? (Option.filter_eq_some_iff.1 hprofile).1
    cases profile with
    | object members => exact hkeyed.find? hrecommended
    | _ => cases hrecommended

end Tuning

namespace CommandLine

open Tuning

theorem settingsIn_eq (state : FileState) :
    settingsIn state = (recommendations state).members.map overlay := by
  unfold settingsIn recommendations
  cases hprofile : loadProfile? state with
  | none => rfl
  | some profile =>
    obtain ⟨v, hv, hsettings⟩ := ofProfile_of_isProfile (Option.filter_eq_some_iff.1 hprofile).2
    rw [Option.getD_some, Option.bind_some, hv, Option.getD_some, hsettings]

/-- **The settings under any file.**  They are the three standard ones, each of them positive, with
positive whole numbers that the profile in the file recommends in their place.  The one obstacle is
a profile whose recommendations are no object. -/
theorem settingsIn_any_file (state : FileState) :
    (∃ (recommended : Catalog String Json) (s : Settings),
        recommendations state = .object recommended ∧ settingsIn state = .ok s ∧
        s.named.keys = ["max_workers", "max_concurrent", "connector_limit"] ∧
        (∀ e ∈ s.named, e.2.given.whole? = some e.2.value ∧ 0 < e.2.value) ∧
        ∀ name standard, (name, standard) ∈ Settings.standard.named →
          s.named.find? name = some (((recommended.find? name).bind Setting.ofJson?).getD standard)) ∨
      (∀ recommended, recommendations state ≠ .object recommended) ∧
        settingsIn state = .error .noMember := by
  rw [settingsIn_eq]
  have hkeyed := keyed_recommendations state
  cases hrecommendations : recommendations state with
  | object recommended =>
    rw [hrecommendations] at hkeyed
    refine .inl ⟨recommended, overlay recommended, rfl, rfl, rfl,
      fun e _ => ⟨e.2.whole?_given, e.2.positive⟩, fun name standard hstandard => ?_⟩
    have hname : name ∈ Settings.standard.named.keys := List.mem_map.2 ⟨_, hstandard, rfl⟩
    have hfind : Settings.standard.named.find? name = some standard :=
      Catalog.find?_of_mem (by decide) hstandard
    rw [overlay, Settings.find?_foldl_override hkeyed.nodup_keys _ hname, hfind,
      Option.or_some]
  | _ => exact .inr ⟨by simp, rfl⟩

/-- A profile that recommends a list. -/
def listed : String :=
  "\x7b\"version\":1,\"platform\":\x7b\x7d,\"recommended\":[],\"profile\":\"balanced\"\x7d"

/-- **A profile that recommends a list is taken for one and breaks off the run.** -/
theorem settingsIn_broken_by_list : settingsIn (.ofText listed) = .error .noMember := by
  have hjson : (FileState.ofText listed).json? = some (.object [("version", .int 1),
      ("platform", .object []), ("recommended", .list []), ("profile", .text "balanced")]) := by
    rw [FileState.json?_ofText (by decide +kernel)]
    rfl
  rw [settingsIn, loadProfile?, hjson]
  rfl

end CommandLine

end UsageLedger
