/-
UsageLedger/Report/Selection.lean

Which rows a report shows, and in what order.  Rows are ordered by one metric,
the smallest first, ties as they came; users may be selected by a pattern that
matches somewhere in their key.
-/
import UsageLedger.Pattern.Reader
import UsageLedger.Pattern.Search
import UsageLedger.Report.Basic

namespace UsageLedger

/-- What rows are ordered by. -/
inductive SortMetric
  | blocks
  | files
  | directories
  | fileSize
  deriving DecidableEq, Repr

namespace SortMetric

/-- All metrics. -/
def all : List SortMetric := [blocks, files, directories, fileSize]

/-- The name of a metric. -/
def name : SortMetric → String
  | blocks => "blocks"
  | files => "files"
  | directories => "directories"
  | fileSize => "fileSize"

/-- The metric that a value names.  What names none is shown, if there is room. -/
def ofJson (facilities : Facilities) (v : Json) : Except Fault SortMetric :=
  match all.find? fun m => v.text? == some m.name with
  | some m => .ok m
  | none => (v.displayWithin facilities.showing).bind fun shown => .error (.invalid (.metric shown))

/-- What a metric says of some usage. -/
def of {b : Borders} (m : SortMetric) (u : Usage b) : Int :=
  match m with
  | blocks => u.blocks
  | files => u.files
  | directories => u.directories
  | fileSize => u.bytes

/-- Rows in the order of a metric. -/
def sort {b : Borders} {κ : Type} (m : SortMetric) (rows : List (κ × Usage b)) :
    List (κ × Usage b) :=
  rows.mergeSort fun x y => m.of x.2 ≤ m.of y.2

end SortMetric

/-- Which users are shown. -/
inductive NameFilter
  | all
  | matching (p : Pattern)

namespace NameFilter

/-- The filter that a value describes: what is missing or empty selects all. -/
def ofJson (facilities : Facilities) (v : Json) : Except Fault NameFilter :=
  if !v.isPresent then .ok all
  else
    match v with
    | .text s => (Pattern.parse facilities s).map matching
    | _ => .error .wrongKind

/-- Whether a user is shown. -/
def selects : NameFilter → String → Bool
  | all, _ => true
  | matching p, key => p.found key

/-- Whether any value is shown as a user; only texts can be searched. -/
def selectsAny : NameFilter → Json → Except Fault Bool
  | all, _ => .ok true
  | matching p, .text key => .ok (p.found key)
  | matching _, _ => .error .wrongKind

/-- The values that are shown as users. -/
def keep (f : NameFilter) : List Json → Except Fault (List Json)
  | [] => .ok []
  | key :: rest => do
    let shown ← f.selectsAny key
    let others ← f.keep rest
    return if shown then key :: others else others

/-- The values that a value given as it is selects: a text is a pattern, and nothing selects all.
Any other value cannot search the first of them. -/
def keepBy (facilities : Facilities) (given : Json) (keys : List Json) : Except Fault (List Json) :=
  match given with
  | .null => .ok keys
  | .text _ => (ofJson facilities given).bind (·.keep keys)
  | _ => if keys.isEmpty then .ok [] else .error .noMember

end NameFilter

/-- How a report is shown. -/
structure ReportOptions where
  metric : SortMetric
  filter : NameFilter

/-- The options that values describe. -/
def ReportOptions.ofJson (facilities : Facilities) (metric filter : Json) : Except Fault ReportOptions := do
  return ⟨← SortMetric.ofJson facilities metric, ← NameFilter.ofJson facilities filter⟩

namespace Report

variable {b : Borders}

/-- The rows of the table of groups. -/
def groupRows (o : ReportOptions) (r : Report b) : List (String × Usage b) := o.metric.sort r.groups

/-- The rows of the table of users. -/
def userRows (o : ReportOptions) (r : Report b) : List (String × Usage b) :=
  o.metric.sort (r.users.filter fun row => o.filter.selects row.1)

end Report

end UsageLedger
