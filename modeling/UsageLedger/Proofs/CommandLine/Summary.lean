/-
UsageLedger/Proofs/CommandLine/Summary.lean

What a run over a snapshot comes to, apart from what it says.  A visit does not change
the tree, so what a path adds to the run is a function of the tree and the path; the
run is the sum of these sections, up to the first that breaks it off
(`mute_run`).

This holds of a run whose remarks do not get in the way of its reports; a quiet run
has none.
-/
import UsageLedger.CommandLine.Run

namespace UsageLedger.CommandLine

open Number

/-! ### Silence -/

/-- An outcome without what is said. -/
def Outcome.mute (r : Outcome) : Outcome := { r with said := "" }

/-- A section without what is said. -/
def Section.mute (s : Section) : Section := { s with said := "" }

theorem Refusal.mute_outcome (said : String) (r : Refusal) :
    (r.outcome said).mute = (r.outcome "").mute := by
  cases r with
  | noCredentials path host => rfl
  | fault f => cases f <;> rfl

/-! ### Sections -/

/-- What the visit of a path adds to a run. -/
def Section.ofVisit (l : Layout) (path : String) (t : Traversal) : Section :=
  match t.fault with
  | some _ => ⟨"", "", true, none⟩
  | none =>
    let (printed, fault) := (Report.ofVisits l.borders path t.visits).print l.options
    ⟨printed, "", false, fault⟩

/-- The sections up to the first with a fault. -/
def upToFault : List Section → List Section
  | [] => []
  | first :: rest => if first.fault.isSome then [first] else first :: upToFault rest

/-- What sections come to. -/
def conclude (parts : List Section) : Outcome :=
  let printed := String.join (parts.map Section.printed)
  match parts.findSome? Section.fault with
  | some f => (Outcome.broken f printed "").mute
  | none => ⟨.code (if parts.countP Section.failed = 0 then 0 else 1), printed, "", []⟩

theorem conclude_map_mute (parts : List Section) : conclude (parts.map Section.mute) = conclude parts := by
  unfold conclude
  simp only [List.map_map, List.findSome?_map, List.countP_map]
  rfl

/-- Where no section has a fault, all count. -/
theorem conclude_of_forall {parts : List Section} (h : ∀ part ∈ parts, part.fault = none) :
    conclude (upToFault parts) =
      ⟨.code (if parts.countP Section.failed = 0 then 0 else 1),
        String.join (parts.map Section.printed), "", []⟩ := by
  have hall : upToFault parts = parts := by
    induction parts with
    | nil => rfl
    | cons first rest ih =>
      obtain ⟨hfirst, hrest⟩ := List.forall_mem_cons.1 h
      rw [upToFault, hfirst, ih hrest]
      rfl
  have hnone : parts.findSome? Section.fault = none := List.findSome?_eq_none_iff.2 h
  unfold conclude
  rw [hall, hnone]

/-- The paths of a run. -/
def Options.places (o : Options) : List String := if o.paths.isEmpty then ["/"] else o.paths

variable {w : Surroundings} {o : Options} {l : Layout} {tree : Snapshot.Tree} {workers : Int}

/-- A visit of a tree goes through, or the path is at fault. -/
theorem failure_of_visit {path : String} {f : Fault} (h : (tree.visit workers path).fault = some f)
    (o : Options) : ∃ text, failure o path f = .ok text := by
  unfold Snapshot.Tree.visit at h
  dsimp only at h
  split at h
  · cases h
    exact ⟨_, rfl⟩
  · split at h
    · cases h
    · split at h
      · cases h
        exact ⟨_, rfl⟩
      · cases h

/-- The remarks of a report do not get in its way: it is the one of the visits, or it is missing for
the fault that ended the traversal. -/
def Unhindered (s : ReportSettings) (b : Borders) (path : String) (t : Traversal) : Prop :=
  (s.report b path t).2 = t.toExcept.map (Report.ofVisits b path)

theorem mute_sectionOf {timing : Timing} {path : String}
    (h : Unhindered ⟨o.verbose, timing, o.progress⟩ l.borders path (tree.visit workers path)) :
    (sectionOf timing o l path (tree.visit workers path)).mute =
      .ofVisit l path (tree.visit workers path) := by
  unfold sectionOf Section.ofVisit
  dsimp only
  unfold Unhindered at h
  generalize (⟨o.verbose, timing, o.progress⟩ : ReportSettings).report l.borders path
    (tree.visit workers path) = reported at h
  obtain ⟨said, made⟩ := reported
  subst h
  -- The report is a function of the traversal now; what was said with it is forgotten.
  cases hf : (tree.visit workers path).fault with
  | none => simp only [Traversal.toExcept, hf, Except.map, Section.mute]
  | some f =>
    obtain ⟨text, ht⟩ := failure_of_visit hf o
    simp only [Traversal.toExcept, hf, Except.map, ht]
    rfl

/-- One path of a run. -/
theorem sections_cons (o : Options) (l : Layout) (timings : Nat → Timing) (tree : Snapshot.Tree)
    (workers : Int) (path : String) (rest : List String) :
    sections o l timings (.snapshot tree workers) (path :: rest) =
      if (sectionOf (timings 0) o l path (tree.visit workers path)).fault.isSome then
        (.snapshot tree workers, [sectionOf (timings 0) o l path (tree.visit workers path)])
      else
        ((sections o l (fun i => timings (i + 1)) (.snapshot tree workers) rest).1,
          sectionOf (timings 0) o l path (tree.visit workers path) ::
            (sections o l (fun i => timings (i + 1)) (.snapshot tree workers) rest).2) := rfl

/-- The paths of a run leave the tree to the next as they found it. -/
theorem sections_source (o : Options) (l : Layout) (timings : Nat → Timing) (tree : Snapshot.Tree)
    (workers : Int) (paths : List String) :
    (sections o l timings (.snapshot tree workers) paths).1 = .snapshot tree workers := by
  induction paths generalizing timings with
  | nil => rfl
  | cons path rest ih =>
    rw [sections_cons]
    split
    · rfl
    · exact ih _

/-- All paths of a run, up to the first with a fault. -/
theorem mute_sections {timings : Nat → Timing} {paths : List String}
    (h : ∀ path ∈ paths, ∀ i,
      Unhindered ⟨o.verbose, timings i, o.progress⟩ l.borders path (tree.visit workers path)) :
    (sections o l timings (.snapshot tree workers) paths).2.map Section.mute =
      upToFault (paths.map fun path => .ofVisit l path (tree.visit workers path)) := by
  induction paths generalizing timings with
  | nil => rfl
  | cons path rest ih =>
    obtain ⟨hpath, hrest⟩ := List.forall_mem_cons.1 h
    have hfirst := mute_sectionOf (hpath 0)
    have hfault : (sectionOf (timings 0) o l path (tree.visit workers path)).fault =
        (Section.ofVisit l path (tree.visit workers path)).fault := by
      rw [← hfirst]
      rfl
    rw [sections_cons, List.map_cons, upToFault, hfault]
    split
    · rw [List.map_singleton, hfirst]
    · rw [List.map_cons, hfirst, ih fun path hp i => hrest path hp (i + 1)]

/-! ### Runs -/

/-- What a run over a snapshot comes to. -/
def summary (facilities : Facilities) (o : Options) (state : FileState) : Outcome :=
  match layout facilities o with
  | .error f => (Refusal.outcome "" (.fault f)).mute
  | .ok l =>
    match (Snapshot.load facilities.showing false o.snapshot state).2 with
    | .error f => (Refusal.outcome "" (.fault f)).mute
    | .ok tree =>
      conclude (upToFault (o.places.map fun path => .ofVisit l path (tree.visit o.maxWorkers path)))

theorem mute_report (said : String) :
    (report w o l (.snapshot tree workers) said).mute =
      conclude ((sections o l w.clock.reports (.snapshot tree workers) o.places).2.map Section.mute) := by
  rw [conclude_map_mute]
  have hsource := sections_source o l w.clock.reports tree workers o.places
  unfold report Options.places at *
  dsimp only
  generalize sections o l w.clock.reports (.snapshot tree workers) _ = reported at hsource ⊢
  obtain ⟨s, parts⟩ := reported
  subst hsource
  unfold conclude
  dsimp only
  cases hf : parts.findSome? Section.fault with
  | none =>
    -- A snapshot keeps nothing for the next run.
    simp only [kept]
    rfl
  | some f => cases f <;> rfl

theorem load_snd (room : Nat) (verbose : Bool) (file : String) (state : FileState) :
    (Snapshot.load room verbose file state).2 = (Snapshot.load room false file state).2 := by
  unfold Snapshot.load
  split <;> rfl

/-- **A run over a snapshot is the sum of its sections.** -/
theorem mute_run (hs : o.snapshot ≠ "")
    (h : ∀ {l tree}, layout w.facilities o = .ok l →
      (Snapshot.load w.facilities.showing false o.snapshot (w.files o.snapshot)).2 = .ok tree →
      ∀ path ∈ o.places, ∀ i,
        Unhindered ⟨o.verbose, w.clock.reports i, o.progress⟩ l.borders path
          (tree.visit o.maxWorkers path)) :
    (run w o).mute = summary w.facilities o (w.files o.snapshot) := by
  have hsource : (source w o).2 =
      ((Snapshot.load w.facilities.showing false o.snapshot (w.files o.snapshot)).2.mapError
        Refusal.fault).map fun tree => .snapshot tree o.maxWorkers := by
    unfold source
    rw [← load_snd w.facilities.showing (o.verbose != 0)]
    simp [hs]
  unfold run summary
  cases hl : layout w.facilities o with
  | error f => rfl
  | ok l =>
    dsimp only
    generalize source w o = found at hsource ⊢
    obtain ⟨said, made⟩ := found
    subst hsource
    cases ht : (Snapshot.load w.facilities.showing false o.snapshot (w.files o.snapshot)).2 with
    | error f => exact Refusal.mute_outcome said (.fault f)
    | ok tree =>
      show (report w o l (.snapshot tree o.maxWorkers) said).mute = _
      rw [mute_report, mute_sections (h hl ht)]

/-! ### Surroundings for examples -/

/-- What holds of whatever a computation gives holds of what it gives. -/
theorem of_toOption_all {α : Type} {x : Except Fault α} {p : α → Bool} {a : α}
    (h : x.toOption.all p = true) (hx : x = .ok a) : p a = true := by
  subst hx
  exact h

/-- Surroundings in which every file holds a text. -/
def Surroundings.holding (text : String) : Surroundings where
  files := fun _ => .ofText text
  writable := fun _ => false
  home? := none
  facilities := .standard
  clock := .still (.whole 0)
  date := ""
  machine := ⟨"linux", none, none, none⟩
  profilePath := "profile"
  server := .absent ""

/-- The options that name a snapshot and nothing else. -/
def Options.viewing : Options := { Options.standard .standard with snapshot := "list" }

end UsageLedger.CommandLine
