/-
UsageLedger/Report/Collector.lean

Collecting visits into a report, with what is said on the way: warnings about
nodes without owner, links when asked for every detail, and the progress.
Nothing that is said changes what is counted.
-/
import UsageLedger.Progress
import UsageLedger.Report.Basic

namespace UsageLedger

open Number

/-- A report in the making. -/
structure Collector (b : Borders) where
  report : Report b
  progress : Option Progress

/-- What became of one step: what was said, and the fault that broke it off. -/
structure Remark where
  said : String
  fault : Option Fault

namespace Collector

variable {b : Borders}

/-- The warning about an owner or a group that is not known. -/
def ownerWarning (verbose : Int) (role path : String) (owner : Json) : String :=
  if owner.text?.isNone && verbose != 0 then
    "\r[WARN] No " ++ role ++ " for " ++ path ++ ", counting as unknown\n"
  else ""

/-- What is said about a visit before it is counted. -/
def remarks (verbose : Int) (v : Visit) : String :=
  let link := match v.node.kind with
    | .symlink => if 2 ≤ verbose then "[DEBUG] Symlink: " ++ v.path ++ "\n" else ""
    | _ => ""
  let owners := ownerWarning verbose "group" v.path v.node.group ++
    ownerWarning verbose "owner" v.path v.node.user
  if v.node.kind.isCounted then link ++ owners else ""

/-- The progress after a node of a kind. -/
def advance (p : Progress) (now : Quantity) : NodeKind → Progress × Except Fault String
  | .file => p.update now 1 0 0
  | .directory => p.update now 0 1 0
  | .symlink => p.update now 0 0 1
  | .other _ => (p, .ok "")

/-- Counts a visit. -/
def record (verbose : Int) (now : Quantity) (c : Collector b) (v : Visit) :
    Collector b × Remark :=
  let said := remarks verbose v
  let report := c.report.record v.node
  match c.progress with
  | none => (⟨report, none⟩, ⟨said, none⟩)
  | some p =>
    match advance p now v.node.kind with
    | (p, .ok line) => (⟨report, some p⟩, ⟨said ++ line, none⟩)
    | (p, .error f) => (⟨report, some p⟩, ⟨said, some f⟩)

/-- Counts a file whose size and blocks may be anything.  What is no number breaks off in the middle
of the overall count, when the entries of group and user are there but not changed yet. -/
def recordUnchecked (verbose : Int) (now : Quantity) (c : Collector b) (v : Visit)
    (size blocks : Json) : Collector b × Remark :=
  match size.whole?, blocks.whole? with
  | some size, some blocks =>
    record verbose now c { v with node := { v.node with size, blocks } }
  | size, _ =>
    let r := (c.report.withGroup (ownerKey v.node.group)).withUser (ownerKey v.node.user)
    let overall := { r.overall with
      files := r.overall.files + 1
      bytes := r.overall.bytes + size.getD 0 }
    (⟨{ r with overall }, c.progress⟩, ⟨remarks verbose v, some .wrongKind⟩)

/-- Follows the events of a traversal, up to the first fault.  The clock is read anew at each visit. -/
def follow (verbose : Int) : (Nat → Quantity) → Collector b → List Event → Collector b × Remark
  | _, c, [] => (c, ⟨"", none⟩)
  | clock, c, .remark text :: rest =>
    let (c, more) := follow verbose clock c rest
    (c, ⟨text ++ more.said, more.fault⟩)
  | clock, c, .visit v :: rest =>
    match record verbose (clock 0) c v with
    | (c, ⟨said, some f⟩) => (c, ⟨said, some f⟩)
    | (c, ⟨said, none⟩) =>
      let (c, more) := follow verbose (fun i => clock (i + 1)) c rest
      (c, ⟨said ++ more.said, more.fault⟩)

end Collector

/-! ### Whole reports -/

/-- What the clock shows while a report is made, in seconds. -/
structure Timing where
  /-- When the traversal begins. -/
  start : Quantity
  /-- At each visit, the first one first. -/
  visiting : Nat → Quantity
  /-- When the traversal has ended. -/
  finish : Quantity

/-- No time passes. -/
def Timing.still (now : Quantity) : Timing := ⟨now, fun _ => now, now⟩

/-- How a report is made: how much is said, what the clock shows, and whether progress is shown. -/
structure ReportSettings where
  verbose : Int
  timing : Timing
  progress : Bool

namespace ReportSettings

/-- What is said at the beginning. -/
def opening (s : ReportSettings) (path : String) : String :=
  if s.verbose != 0 then "[INFO] Visiting " ++ path ++ " ...\n" else ""

/-- The collector at the beginning. -/
def collector (s : ReportSettings) (b : Borders) (path : String) : Collector b :=
  ⟨.start b path, if s.progress then some (.begin s.timing.start Progress.standardInterval true) else none⟩

/-- What is said about a finished report. -/
def closing {b : Borders} (s : ReportSettings) (c : Collector b) : Remark :=
  let final := match c.progress with
    | some p => p.final s.timing.finish
    | none => .ok ""
  match final with
  | .error f => ⟨"", some f⟩
  | .ok line =>
    if s.verbose == 0 then ⟨line, none⟩
    else
      match (Progress.between s.timing.start s.timing.finish).bind Elapsed.text with
      | .error f => ⟨line, some f⟩
      | .ok time =>
        let finished := line ++ "[INFO] Visiting finished [" ++ time ++ "].\n"
        let overall := c.report.overall
        match Size.scaled (.whole overall.bytes) with
        | .error f => ⟨finished, some f⟩
        | .ok bytes =>
          ⟨finished ++ "[INFO] " ++ Text.grouped overall.files ++ " files (" ++ bytes ++ "), " ++
            Text.grouped overall.directories ++ " directories, " ++
            Text.grouped overall.symlinks ++ " symlinks\n", none⟩

/-- The report of a traversal, after what is said on the way.  A fault leaves no report. -/
def report (s : ReportSettings) (b : Borders) (path : String) (t : Traversal) :
    String × Except Fault (Report b) :=
  let (c, remark) := (s.collector b path).follow s.verbose s.timing.visiting t.events
  let said := s.opening path ++ remark.said
  match remark.fault.or t.fault with
  | some f => (said, .error f)
  | none =>
    match s.closing c with
    | ⟨more, some f⟩ => (said ++ more, .error f)
    | ⟨more, none⟩ => (said ++ more, .ok c.report)

end ReportSettings

end UsageLedger
