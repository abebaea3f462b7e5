/-
UsageLedger/Proofs/Report/Ties.lean

What the order of the visits leaves in a printed report.  A table by key is printed
from its rows: the number of rows and the widths of the buckets go into its header,
each row into a line of its own.  The widths do not depend on the order of the rows
(`bucketWidths_perm`), and sorting two permutations of some rows gives the same list
where no two of them tie (`SortMetric.sort_eq_of_perm`).

So visits in another order are printed alike, up to the order of tied rows
(`Collector.print_of_perm`).
-/
import Mathlib.Data.List.Pairwise
import UsageLedger.Proofs.Report.Order
import UsageLedger.Proofs.Report.Writing

namespace UsageLedger

open Number

variable {b : Borders}

/-! ### Widths -/

/-- It makes no difference which of two rows widens the columns first. -/
theorem widen_comm (widths counts counts' : List ℕ) :
    widen (widen widths counts) counts' = widen (widen widths counts') counts := by
  induction widths generalizing counts counts' with
  | nil => rfl
  | cons w rest ih =>
    cases counts with
    | nil => cases counts' <;> rfl
    | cons n counts =>
      cases counts' with
      | nil => rfl
      | cons n' counts' =>
        show max (max w _) _ :: _ = max (max w _) _ :: _
        rw [ih, Nat.max_right_comm]

theorem bucketWidths_perm (labels : List String) {rows rows' : List (List ℕ)} (h : rows.Perm rows') :
    bucketWidths labels rows = bucketWidths labels rows' := by
  have : RightCommutative widen := ⟨widen_comm⟩
  exact h.foldl_eq _

/-! ### Order -/

namespace SortMetric

variable {m : SortMetric} {rows rows' : List (String × Usage b)}

/-- No two of some rows tie. -/
def Distinguishes (m : SortMetric) (rows : List (String × Usage b)) : Prop :=
  rows.Pairwise fun x y => m.of x.2 ≠ m.of y.2

instance (m : SortMetric) (rows : List (String × Usage b)) : Decidable (m.Distinguishes rows) :=
  inferInstanceAs (Decidable (rows.Pairwise _))

theorem sort_perm (m : SortMetric) (rows : List (String × Usage b)) : (m.sort rows).Perm rows :=
  List.mergeSort_perm rows _

theorem decide_le_trans (m : SortMetric) (x y z : String × Usage b) (hxy : decide (m.of x.2 ≤ m.of y.2) = true)
    (hyz : decide (m.of y.2 ≤ m.of z.2) = true) : decide (m.of x.2 ≤ m.of z.2) = true :=
  decide_eq_true (Int.le_trans (of_decide_eq_true hxy) (of_decide_eq_true hyz))

theorem decide_le_total (m : SortMetric) (x y : String × Usage b) :
    (decide (m.of x.2 ≤ m.of y.2) || decide (m.of y.2 ≤ m.of x.2)) = true := by
  rw [Bool.or_eq_true, decide_eq_true_eq, decide_eq_true_eq]
  exact Int.le_total _ _

theorem pairwise_sort (m : SortMetric) (rows : List (String × Usage b)) :
    (m.sort rows).Pairwise fun x y => m.of x.2 ≤ m.of y.2 := by
  have hsorted := List.pairwise_mergeSort m.decide_le_trans m.decide_le_total rows
  exact hsorted.imp of_decide_eq_true

theorem Distinguishes.perm (hd : m.Distinguishes rows) (h : rows.Perm rows') : m.Distinguishes rows' :=
  (h.pairwise_iff fun hne => hne.symm).1 hd

/-- Rows without ties have one order only. -/
theorem sort_eq_of_perm (h : rows.Perm rows') (hd : m.Distinguishes rows) :
    m.sort rows = m.sort rows' := by
  have hperm : (m.sort rows).Perm (m.sort rows') :=
    (sort_perm m rows).trans (h.trans (sort_perm m rows').symm)
  refine List.Perm.eq_of_pairwise ?_ (pairwise_sort m rows) (pairwise_sort m rows') hperm
  -- Rows that are not above each other tie, so they are one and the same.
  intro x y hx hy hxy hyx
  by_contra hne
  have : Std.Symm fun x y : String × Usage b => m.of x.2 ≠ m.of y.2 := ⟨fun _ _ h => h.symm⟩
  have htie := List.Pairwise.forall hd ((sort_perm m rows).mem_iff.1 hx)
    (h.mem_iff.2 ((sort_perm m rows').mem_iff.1 hy)) hne
  exact htie (Int.le_antisymm hxy hyx)

end SortMetric

namespace Report

/-! ### Tables -/

/-- Two tables by key differ in the order of tied rows at most: the lines above the rows are the
same, the lines of the rows are the same up to order, and the texts are the same if no two rows tie. -/
structure SameUpToTies (m : SortMetric) (title : String) (rows rows' : List (String × Usage b)) : Prop
    where
  header : keyHeader title rows = keyHeader title rows'
  lines : (rows.map (keyRow (widthsOf rows))).Perm (rows'.map (keyRow (widthsOf rows')))
  text : m.Distinguishes rows → unlines (keyTable title rows) = unlines (keyTable title rows')

variable {m : SortMetric} {title : String} {rows rows' : List (String × Usage b)}

theorem widthsOf_perm (h : rows.Perm rows') : widthsOf rows = widthsOf rows' :=
  bucketWidths_perm _ (h.map _)

theorem keyHeader_perm (h : rows.Perm rows') : keyHeader title rows = keyHeader title rows' := by
  unfold keyHeader
  rw [h.length_eq, widthsOf_perm h]

theorem sameUpToTies_of_perm (h : rows.Perm rows') :
    SameUpToTies m title (m.sort rows) (m.sort rows') := by
  have hsorted : (m.sort rows).Perm (m.sort rows') :=
    (m.sort_perm rows).trans (h.trans (m.sort_perm rows').symm)
  refine ⟨keyHeader_perm hsorted, ?_, ?_⟩
  · rw [widthsOf_perm hsorted]
    exact hsorted.map _
  · intro hd
    rw [SortMetric.sort_eq_of_perm h (hd.perm (m.sort_perm rows))]

/-! ### Reports -/

theorem userRows_all (m : SortMetric) (r : Report b) : r.userRows ⟨m, .all⟩ = m.sort r.users :=
  congrArg m.sort (List.filter_eq_self.2 fun _ _ => rfl)

/-- Two reports are printed alike, up to the order of tied rows. -/
structure PrintedAlike (o : ReportOptions) (r r' : Report b) : Prop where
  head : r.head = r'.head
  groups : SameUpToTies o.metric "By group:" (r.groupRows o) (r'.groupRows o)
  users : SameUpToTies o.metric "By user:" (r.userRows o) (r'.userRows o)

variable {o : ReportOptions} {r r' : Report b}

theorem Agrees.printedAlike (h : r.Agrees r') (o : ReportOptions) : PrintedAlike o r r' := by
  refine ⟨?_, sameUpToTies_of_perm h.groups, sameUpToTies_of_perm (h.users.filter _)⟩
  unfold head titleRows titleLines overallTable
  rw [h.path, h.overall, h.groups.length_eq, h.users.length_eq]

/-- What can be written of a report does not depend on the order of its rows. -/
theorem PrintedAlike.fault_eq (h : PrintedAlike o r r') : (r.print o).2 = (r'.print o).2 := by
  have hall (lines lines' : List Row) (hp : lines.Perm lines') :
      lines.all (·.writable) = lines'.all (·.writable) := hp.all_eq
  -- The lines are looked at one by one, so their order does not matter.
  have hrows : (r.rows o).all (·.writable) = (r'.rows o).all (·.writable) := by
    show (r.head ++ keyTable _ _ ++ [plainRow ""] ++ keyTable _ _).all _ =
      (r'.head ++ keyTable _ _ ++ [plainRow ""] ++ keyTable _ _).all _
    simp only [keyTable, List.all_append, h.head, h.groups.header, h.users.header,
      hall _ _ h.groups.lines, hall _ _ h.users.lines]
  unfold print
  dsimp only
  rw [hrows]
  split <;> rfl

end Report

/-! ### Visits in another order -/

/-- **What is printed does not depend on the order of the visits, up to ties.**  Two collectors are told
of the same visits, in any two orders, with whatever progress and remarks.  If the report of the one
can be printed to its end, so can that of the other; both texts are made of their head and of the
tables by group and by user, the heads are the same, and the tables are the same up to the order of
tied rows. -/
theorem Collector.print_of_perm (b : Borders) (path : String) (o : ReportOptions)
    {visits visits' : List (Quantity × Visit)} (hv : (visits.map (·.2)).Perm (visits'.map (·.2)))
    (verbose verbose' : ℤ) (progress progress' : Option Progress)
    (hw : ((after verbose ⟨.start b path, progress⟩ visits).report.print o).2 = none) :
    ∃ r r' : Report b, r = (after verbose ⟨.start b path, progress⟩ visits).report ∧
      r' = (after verbose' ⟨.start b path, progress'⟩ visits').report ∧
      r.print o = (r.text o, none) ∧ r'.print o = (r'.text o, none) ∧ r.PrintedAlike o r' := by
  have hreport := report_after verbose ⟨.start b path, progress⟩ visits
  have hreport' := report_after verbose' ⟨.start b path, progress'⟩ visits'
  have hagrees : (after verbose ⟨.start b path, progress⟩ visits).report.Agrees
      (after verbose' ⟨.start b path, progress'⟩ visits').report := by
    rw [hreport, hreport']
    exact Report.agrees_of_perm hv
  have halike := hagrees.printedAlike o
  refine ⟨_, _, rfl, rfl, Report.print_of_fault hw, Report.print_of_fault ?_, halike⟩
  rw [← halike.fault_eq, hw]

/-- A file of each of two owners, one of them without a group. -/
def twoFiles : List (Quantity × Visit) :=
  [ (.whole 0, ⟨"/a", ⟨.file, .text "a", .text "ann", .text "staff", 5, 1⟩⟩),
    (.whole 1, ⟨"/b", ⟨.file, .text "b", .text "ben", .null, 7, 1⟩⟩) ]

/-- By size the two files have one order, so their report has one text, whichever comes first. -/
theorem Collector.print_of_perm_twoFiles :
    (twoFiles.map (·.2)).Perm (twoFiles.reverse.map (·.2)) ∧
      ((after 0 ⟨.start .standard "/", none⟩ twoFiles).report.print ⟨.fileSize, .all⟩).2 = none ∧
      (after 0 ⟨.start .standard "/", none⟩ twoFiles).report.print ⟨.fileSize, .all⟩ =
        (after 2 ⟨.start .standard "/", none⟩ twoFiles.reverse).report.print ⟨.fileSize, .all⟩ := by
  have hperm : (twoFiles.map (·.2)).Perm (twoFiles.reverse.map (·.2)) :=
    twoFiles.reverse_perm.symm.map _
  have hreport : (after 0 ⟨.start .standard "/", none⟩ twoFiles).report =
      .ofVisits .standard "/" (twoFiles.map (·.2)) := report_after _ _ _
  have hsound : ∀ v ∈ twoFiles.map (·.2), v.node.Sound := by
    intro v hv
    simp only [twoFiles, List.map_cons, List.map_nil, List.mem_cons, List.not_mem_nil, or_false] at hv
    obtain rfl | rfl := hv
    · exact ⟨rfl, by decide, by decide, nofun⟩
    · exact ⟨rfl, by decide, by decide, nofun⟩
  have hmoderate : Moderate (twoFiles.map (·.2)) := by decide +kernel
  have hwritable : ((after 0 ⟨.start .standard "/", none⟩ twoFiles).report.print
      ⟨.fileSize, .all⟩).2 = none := by
    have hshort := Report.writable_ofVisits .standard "/" Borders.isOk_labels_standard hsound hmoderate
    rw [hreport, Report.print_of_writable hshort]
  obtain ⟨r, r', hr, hr', hprint, hprint', halike⟩ :=
    print_of_perm .standard "/" ⟨.fileSize, .all⟩ hperm 0 2 none none hwritable
  have hgroups : SortMetric.fileSize.Distinguishes (r.groupRows ⟨.fileSize, .all⟩) := by
    have hd : SortMetric.fileSize.Distinguishes r.groups := by
      rw [hr]
      decide +kernel
    exact hd.perm (SortMetric.sort_perm _ _).symm
  have husers : SortMetric.fileSize.Distinguishes (r.userRows ⟨.fileSize, .all⟩) := by
    have hd : SortMetric.fileSize.Distinguishes (r.users.filter fun _ => true) := by
      rw [hr]
      decide +kernel
    exact hd.perm (SortMetric.sort_perm _ _).symm
  refine ⟨hperm, hwritable, ?_⟩
  rw [← hr, ← hr', hprint, hprint', Report.text, Report.text, halike.head, halike.groups.text hgroups,
    halike.users.text husers]

end UsageLedger
