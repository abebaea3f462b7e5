/-
UsageLedger/Proofs/CommandLine/Pathwise.lean

The paths of a run do not affect one another.  A quiet run over a snapshot prints what
the runs over each of its paths alone print, one after the other, and ends with the
highest of their exit codes (`run_pathwise`).

What a single path is worth is `exitCode`: refused settings and an unreadable snapshot
are the same for every path, and in a snapshot that loads only a path that is not known
fails.  Nothing else can go wrong while the lines of the snapshot are regular and the numbers
of the reports can be written.
-/
import UsageLedger.Proofs.CommandLine.Summary
import UsageLedger.Proofs.Report.Order
import UsageLedger.Proofs.Report.Writing
import UsageLedger.Proofs.Size.Borders
import UsageLedger.Proofs.Snapshot.Coverage

namespace UsageLedger.CommandLine

open Number Snapshot

variable {facilities : Facilities} {w : Surroundings} {o : Options} {l : Layout} {tree : Tree}
  {state : FileState} {paths : List String} {path : String}

/-! ### Settings -/

/-- A fault of the settings: they are not acceptable, ask for too large a number, or are nested too
deeply. -/
inductive OfSettings : Fault → Prop
  | invalid (why : Invalid) : OfSettings (.invalid why)
  | outOfRange : OfSettings .outOfRange
  | tooDeep : OfSettings .tooDeep

theorem ofSettings_pattern {s : String} {f : Fault} (h : Pattern.parse facilities s = .error f) :
    OfSettings f := by
  unfold Pattern.parse at h
  split at h <;> cases h
  · exact .invalid _
  · exact .outOfRange
  · exact .invalid _
  · exact .invalid _
  · exact .tooDeep

/-- Where a size is not read it is refused, or out of range. -/
theorem fault_of_size {s : String} {f : Fault} (h : Size.parse s = .error f) :
    f = .outOfRange ∨ ∃ why, f = .invalid why := by
  unfold Size.parse at h
  split at h
  · cases h
    exact .inr ⟨_, rfl⟩
  · dsimp only at h
    split at h
    · cases h
      exact .inr ⟨_, rfl⟩
    · split at h <;> cases h
      exact .inl rfl

/-- So it is with borders. -/
theorem fault_of_borders {s : String} {f : Fault} (h : Borders.parse s = .error f) :
    f = .outOfRange ∨ ∃ why, f = .invalid why := by
  unfold Borders.parse at h
  rcases bind_eq_error.1 h with h | ⟨values, _, h⟩
  · obtain ⟨_, _, _, _, _, hsize⟩ := mapM_eq_error_iff.1 h
    exact fault_of_size hsize
  · exact .inr (Borders.exists_invalid_of_ofList h)

theorem ofSettings_filter {s : String} {f : Fault} (h : NameFilter.ofJson facilities (.text s) = .error f) :
    OfSettings f := by
  unfold NameFilter.ofJson at h
  split at h
  · cases h
  · dsimp only at h
    cases hp : Pattern.parse facilities s with
    | ok p =>
      rw [hp] at h
      cases h
    | error f' =>
      rw [hp] at h
      cases h
      exact ofSettings_pattern hp

theorem ofSettings_layout {f : Fault} (h : layout facilities o = .error f) : OfSettings f := by
  unfold layout at h
  rcases bind_eq_error.1 h with h | ⟨filter, _, h⟩
  · exact ofSettings_filter h
  · dsimp only at h
    split at h
    · cases h
    · rcases bind_eq_error.1 h with h | ⟨borders, _, h⟩
      · rcases fault_of_borders h with rfl | ⟨why, rfl⟩
        · exact .outOfRange
        · exact .invalid why
      · cases h

/-- The labels of the buckets are short enough to be written. -/
theorem isOk_labels_of_layout (h : layout facilities o = .ok l) :
    (l.borders.labels (some maxDigits)).isOk = true := by
  unfold layout at h
  obtain ⟨filter, -, h⟩ := bind_eq_ok.1 h
  dsimp only at h
  split at h
  · cases h
    exact Borders.isOk_labels_standard
  · obtain ⟨borders, hborders, h⟩ := bind_eq_ok.1 h
    cases h
    rw [Borders.labels_of_parse hborders]
    rfl

/-! ### Paths -/

/-- The options for some paths, with nothing said on the way. -/
def Options.quietly (o : Options) (paths : List String) : Options :=
  { o with paths, verbose := 0, progress := false }

theorem places_quietly (h : paths ≠ []) : (o.quietly paths).places = paths := by
  cases paths with
  | nil => exact absurd rfl h
  | cons _ _ => rfl

/-- Where nothing is said, nothing gets in the way of a report. -/
theorem unhindered_quiet (timing : Timing) (b : Borders) (path : String) (t : Traversal) :
    Unhindered ⟨0, timing, false⟩ b path t := by
  unfold Unhindered Traversal.toExcept
  cases hf : t.fault with
  | none => exact ReportSettings.report_quiet b path timing hf
  | some f =>
    have hquiet := (Collector.fault_follow 0 timing.visiting
      (c := (⟨0, timing, false⟩ : ReportSettings).collector b path) rfl t.events).1
    simp only [ReportSettings.report, hquiet, hf]
    rfl

/-- The exit code of a run over a single path: two for settings that are refused, one for a snapshot
that cannot be read and for a path that is not found, else zero. -/
def exitCode (facilities : Facilities) (o : Options) (state : FileState) (path : String) : ℕ :=
  match layout facilities o with
  | .error _ => 2
  | .ok _ =>
    match (load facilities.showing false o.snapshot state).2 with
    | .error _ => 1
    | .ok tree => if tree.Knows (.ofText path) then 0 else 1

/-- The highest of some exit codes. -/
def highest (codes : List ℕ) : ℕ := codes.foldr max 0

theorem highest_map_const (h : paths ≠ []) (n : ℕ) : highest (paths.map fun _ => n) = n := by
  induction paths with
  | nil => exact absurd rfl h
  | cons path rest ih =>
    show max n (highest (rest.map fun _ => n)) = n
    -- The induction is on lists that are not empty, so the last path is a case apart.
    cases rest with
    | nil => exact Nat.max_zero n
    | cons _ _ => rw [ih (List.cons_ne_nil _ _), Nat.max_self]

theorem highest_map_ite (failed : String → Bool) (paths : List String) :
    highest (paths.map fun path => if failed path then 1 else 0) =
      if paths.countP failed = 0 then 0 else 1 := by
  induction paths with
  | nil => rfl
  | cons path rest ih =>
    show max (if failed path then 1 else 0)
      (highest (rest.map fun path => if failed path then 1 else 0)) = _
    rw [ih, List.countP_cons]
    by_cases hf : failed path = true
    · rw [if_pos hf, if_neg (Nat.succ_ne_zero _)]
      split <;> rfl
    · rw [if_neg hf]
      exact Nat.zero_max _

/-- A path of a tree with moderate numbers breaks nothing off, and fails when it is not known. -/
theorem section_of_tree (hl : layout facilities o = .ok l) {workers : ℤ} (hw : 1 ≤ workers)
    (hloadable : tree.nodes.Loadable) (hsound : tree.nodes.Sound)
    (hm : Moderate (tree.recordedWithin (.ofText path))) :
    (Section.ofVisit l path (tree.visit workers path)).fault = none ∧
      (Section.ofVisit l path (tree.visit workers path)).failed =
        decide (¬ tree.Knows (.ofText path)) := by
  by_cases hk : tree.Knows (.ofText path)
  · -- A known path is visited to the end, and the report of the visits can be written.
    obtain ⟨hf, hd⟩ := Tree.visit_of_knows hw hk
    have hperm := hd.perm hloadable
    have hvisits : ∀ v ∈ (tree.visit workers path).visits, v.node.Sound :=
      fun v hv => Tree.sound_recordedWithin hsound _ v (hperm.mem_iff.1 hv)
    have hwritable := Report.writable_ofVisits l.borders path (isOk_labels_of_layout hl) hvisits
      (hm.perm hperm.symm)
    simp only [Section.ofVisit, hf, Report.print_of_writable hwritable, hk, not_true_eq_false,
      decide_false, and_self]
  · -- Another is refused before any visit.
    have hcontains : tree.contains (.ofText path) = false := by
      rw [← Bool.not_eq_true, Tree.contains_iff]
      exact hk
    have hvisit : tree.visit workers path = .failed (.snapshot (.notFound path)) := by
      simp [Tree.visit, hcontains]
    simp [hvisit, Section.ofVisit, Traversal.failed, hk]

/-- So the paths of a tree come to their sections, all of them printed, and the highest code. -/
theorem conclude_of_tree (hl : layout facilities o = .ok l) {workers : ℤ} (hw : 1 ≤ workers)
    (hloadable : tree.nodes.Loadable) (hsound : tree.nodes.Sound)
    (hm : ∀ path ∈ paths, Moderate (tree.recordedWithin (.ofText path))) :
    conclude (upToFault (paths.map fun path => .ofVisit l path (tree.visit workers path))) =
      ⟨.code (highest (paths.map fun path => if tree.Knows (.ofText path) then 0 else 1)),
        String.join (paths.map fun path => (Section.ofVisit l path (tree.visit workers path)).printed),
        "", []⟩ := by
  have hsection (path : String) (hp : path ∈ paths) :=
    section_of_tree hl hw hloadable hsound (hm path hp)
  have hfault : ∀ part ∈ paths.map fun path => Section.ofVisit l path (tree.visit workers path),
      part.fault = none := by
    intro part hpart
    obtain ⟨path, hp, rfl⟩ := List.mem_map.1 hpart
    exact (hsection path hp).1
  have hfailed : (paths.map fun path =>
        Section.ofVisit l path (tree.visit workers path)).countP Section.failed =
      paths.countP fun path => decide (¬ tree.Knows (.ofText path)) := by
    rw [List.countP_map]
    exact List.countP_congr fun path hp => by rw [Function.comp_apply, (hsection path hp).2]
  have hcodes : (paths.map fun path => if tree.Knows (.ofText path) then 0 else 1) =
      paths.map fun path => if decide (¬ tree.Knows (.ofText path)) then 1 else 0 := by
    refine List.map_congr_left fun path _ => ?_
    by_cases hk : tree.Knows (.ofText path) <;> simp [hk]
  rw [conclude_of_forall hfault, List.map_map, hcodes, highest_map_ite, ← hfailed]
  rfl

/-! ### Runs -/

/-- What is printed for a path. -/
def pathText (facilities : Facilities) (o : Options) (state : FileState) (path : String) : String :=
  match layout facilities o with
  | .error _ => ""
  | .ok l =>
    match (load facilities.showing false o.snapshot state).2 with
    | .error _ => ""
    | .ok tree => (Section.ofVisit l path (tree.visit o.maxWorkers path)).printed

theorem join_map_empty (paths : List String) : String.join (paths.map fun _ => "") = "" := by
  induction paths with
  | nil => rfl
  | cons _ rest ih => rw [List.map_cons, String.join_cons, ih, String.append_empty]

/-- A snapshot with regular lines loads with sound nodes, or does not load for a fault of its own. -/
theorem load_of_regular {room : ℕ} (file : String) (h : ∀ line ∈ linesIn state, Regular room line) :
    (∃ tree, (load room false file state).2 = .ok tree ∧ tree.nodes.Sound) ∨
      ∃ why, (load room false file state).2 = .error (.snapshot why) := by
  have hrecord {members} (hm : members ∈ recordsIn state) :
      ∃ line, Regular room line ∧ record? line = some members := by
    obtain ⟨line, hline, hmembers⟩ := List.mem_filterMap.1 hm
    exact ⟨line, h line hline, hmembers⟩
  have hends := ends_load room false file state
  generalize (load room false file state).2 = loaded at hends ⊢
  cases hends with
  | sound ht => exact .inl ⟨_, rfl, ht⟩
  | refused why => exact .inr ⟨why, rfl⟩
  | outOfRange hm hb =>
    obtain ⟨line, hline, hmembers⟩ := hrecord hm
    exact absurd hb (hline.bounded _ hmembers)
  | tooDeep hm hd =>
    obtain ⟨line, hline, hmembers⟩ := hrecord hm
    exact absurd hd (hline.shallow _ hmembers)

/-- A quiet run is the sum of what each path is worth. -/
theorem run_quietly (w : Surroundings) (o : Options) {paths : List String} (hpaths : paths ≠ [])
    (hsnapshot : o.snapshot ≠ "") (hworkers : 1 ≤ o.maxWorkers)
    (hrange : layout w.facilities o ≠ .error .outOfRange) (hdepth : layout w.facilities o ≠ .error .tooDeep)
    (hregular : ∀ line ∈ linesIn (w.files o.snapshot), Regular w.facilities.showing line)
    (hmoderate : ∀ tree, (load w.facilities.showing false o.snapshot (w.files o.snapshot)).2 = .ok tree →
      ∀ path ∈ paths, Moderate (tree.recordedWithin (.ofText path))) :
    (run w (o.quietly paths)).printed =
        String.join (paths.map (pathText w.facilities o (w.files o.snapshot))) ∧
      (run w (o.quietly paths)).exit =
        .code (highest (paths.map (exitCode w.facilities o (w.files o.snapshot)))) := by
  have hmute : (run w (o.quietly paths)).mute = summary w.facilities (o.quietly paths) (w.files o.snapshot) :=
    mute_run hsnapshot fun _ _ path _ i => unhindered_quiet (w.clock.reports i) _ path _
  -- What is printed and the exit are not touched by the silence.
  show (run w (o.quietly paths)).mute.printed = _ ∧ (run w (o.quietly paths)).mute.exit = _
  rw [hmute]
  have hsame : layout w.facilities (o.quietly paths) = layout w.facilities o := rfl
  have hfile : (o.quietly paths).snapshot = o.snapshot := rfl
  unfold summary pathText exitCode
  rw [places_quietly hpaths, hsame, hfile]
  cases hl : layout w.facilities o with
  | error f =>
    -- Neither the settings nor the snapshot know of the paths, so all paths have the same code.
    cases ofSettings_layout hl with
    | outOfRange => exact absurd hl hrange
    | tooDeep => exact absurd hl hdepth
    | invalid why =>
      dsimp only
      rw [join_map_empty, highest_map_const hpaths]
      exact ⟨rfl, rfl⟩
  | ok l =>
    rcases load_of_regular o.snapshot hregular with ⟨tree, ht, hsound⟩ | ⟨why, ht⟩
    · rw [ht]
      dsimp only
      have htree := conclude_of_tree hl hworkers (Tree.loadable_of_load ht) hsound (hmoderate tree ht)
      have hsameWorkers : (o.quietly paths).maxWorkers = o.maxWorkers := rfl
      rw [hsameWorkers, htree]
      exact ⟨rfl, rfl⟩
    · rw [ht]
      dsimp only
      rw [join_map_empty, highest_map_const hpaths]
      exact ⟨rfl, rfl⟩

/-- **The paths of a run do not affect one another.**  Over a snapshot with regular lines, a quiet run
prints what its paths alone print, in their order, and ends with the highest of their exit codes, each
the one that is due.  The settings are any that neither ask for too large a number nor are nested too
deeply, and the numbers of each report are to be such that they can be written. -/
theorem run_pathwise (w : Surroundings) (o : Options) {paths : List String} (hpaths : paths ≠ [])
    (hsnapshot : o.snapshot ≠ "") (hworkers : 1 ≤ o.maxWorkers)
    (hrange : layout w.facilities o ≠ .error .outOfRange) (hdepth : layout w.facilities o ≠ .error .tooDeep)
    (hregular : ∀ line ∈ linesIn (w.files o.snapshot), Regular w.facilities.showing line)
    (hmoderate : ∀ tree, (load w.facilities.showing false o.snapshot (w.files o.snapshot)).2 = .ok tree →
      ∀ path ∈ paths, Moderate (tree.recordedWithin (.ofText path))) :
    (run w (o.quietly paths)).printed =
        String.join (paths.map fun path => (run w (o.quietly [path])).printed) ∧
      (∀ path ∈ paths,
        (run w (o.quietly [path])).exit = .code (exitCode w.facilities o (w.files o.snapshot) path)) ∧
      (run w (o.quietly paths)).exit =
        .code (highest (paths.map (exitCode w.facilities o (w.files o.snapshot)))) := by
  -- A path alone is a run over a list of one.
  have hsingle (path : String) (hp : path ∈ paths) :
      (run w (o.quietly [path])).printed = pathText w.facilities o (w.files o.snapshot) path ∧
        (run w (o.quietly [path])).exit = .code (exitCode w.facilities o (w.files o.snapshot) path) := by
    obtain ⟨hprinted, hexit⟩ := run_quietly w o (List.cons_ne_nil path []) hsnapshot hworkers hrange
      hdepth hregular fun tree ht path' hp' => hmoderate tree ht path' (List.mem_singleton.1 hp' ▸ hp)
    rw [hprinted, hexit]
    exact ⟨by simp, congrArg Exit.code (Nat.max_zero _)⟩
  obtain ⟨hprinted, hexit⟩ := run_quietly w o hpaths hsnapshot hworkers hrange hdepth hregular hmoderate
  refine ⟨?_, fun path hp => (hsingle path hp).2, hexit⟩
  rw [hprinted, List.map_congr_left fun path hp => (hsingle path hp).1]

/-- A snapshot with a single file. -/
def oneFile : String := "\x7b\"path\":\"/a\",\"type\":\"FS_FILE_TYPE_FILE\",\"size\":5\x7d"

/-- A path that is not found takes nothing from the report of another. -/
theorem run_pathwise_oneFile :
    layout .standard .viewing ≠ .error .outOfRange ∧ layout .standard .viewing ≠ .error .tooDeep ∧
      (∀ line ∈ linesIn (.ofText oneFile), Regular Facilities.standard.showing line) ∧
      (∀ tree, (load Facilities.standard.showing false "list" (.ofText oneFile)).2 = .ok tree →
        ∀ path ∈ ["/b", "/a"], Moderate (tree.recordedWithin (.ofText path))) ∧
      (run (.holding oneFile) (Options.viewing.quietly ["/b", "/a"])).printed =
        (run (.holding oneFile) (Options.viewing.quietly ["/b"])).printed ++
          (run (.holding oneFile) (Options.viewing.quietly ["/a"])).printed ∧
      (run (.holding oneFile) (Options.viewing.quietly ["/b", "/a"])).exit = .code 1 := by
  have hsettings : layout .standard .viewing = .ok ⟨⟨.blocks, .all⟩, .standard⟩ := rfl
  have hrange : layout .standard .viewing ≠ .error .outOfRange := by
    rw [hsettings]
    exact nofun
  have hdepth : layout .standard .viewing ≠ .error .tooDeep := by
    rw [hsettings]
    exact nofun
  have hregular : ∀ line ∈ linesIn (.ofText oneFile), Regular Facilities.standard.showing line := by
    decide +kernel
  have hmoderate : ∀ tree, (load Facilities.standard.showing false "list" (.ofText oneFile)).2 = .ok tree →
      ∀ path ∈ ["/b", "/a"], Moderate (tree.recordedWithin (.ofText path)) := by
    intro tree ht
    have hall : (load Facilities.standard.showing false "list" (.ofText oneFile)).2.toOption.all (fun tree =>
        decide (∀ path ∈ ["/b", "/a"], Moderate (tree.recordedWithin (.ofText path)))) = true := by
      decide +kernel
    have htree := of_toOption_all hall ht
    exact of_decide_eq_true htree
  obtain ⟨hprinted, _, hexit⟩ := run_pathwise (.holding oneFile) .viewing
    (List.cons_ne_nil "/b" ["/a"]) (by decide) (by decide) hrange hdepth hregular hmoderate
  refine ⟨hrange, hdepth, hregular, hmoderate, ?_, ?_⟩
  · rw [hprinted]
    simp
  · rw [hexit]
    exact congrArg Exit.code (by decide +kernel)

/-- A pattern that asks for more repetitions than there may be. -/
def repetitive : String := "a\x7b4294967296\x7d"

/-- **Settings that ask for too large a number are not refused.**  The run breaks off instead. -/
theorem run_broken_by_large_number :
    (run (.holding oneFile) { Options.viewing with userFilter := repetitive }).exit =
      .fault .outOfRange := by
  have hlayout : layout .standard { Options.viewing with userFilter := repetitive } = .error .outOfRange := rfl
  have hfacilities : (Surroundings.holding oneFile).facilities = .standard := rfl
  unfold run
  rw [hfacilities, hlayout]
  rfl

end UsageLedger.CommandLine
