/-
UsageLedger/Proofs/Report/Selected.lean

The tables of a report hold exactly the selected rows.  `SortMetric.Arranges` says what
is wanted of a table: the same rows, the smallest first, ties as they came.  Sorting gives
that (`SortMetric.arranges_sort`), and nothing else does (`SortMetric.Arranges.eq`).  It
lasts when rows are left out on both sides, so selecting before sorting is selecting
after it (`SortMetric.sort_filter`).

The number in the first line of a table is read back from it (`Report.announced?_namesLine`).
What a run shows of its report is put together in `ReportSettings.tables_exact`.
-/
import Mathlib.Data.List.TakeWhile
import UsageLedger.Proofs.Report.Columns

namespace UsageLedger

open Number

variable {b : Borders}

/-! ### Arranged rows -/

section

variable {α : Type} {key : α → ℤ} {a a' : α} {as as' : List α}

/-- What stands first in an ascending list is not above what stands first in another list, if the two have
the same elements of the latter's key. -/
theorem key_le_of_filter_eq (h : (a :: as).Pairwise fun x y => key x ≤ key y)
    (hfilter : (a :: as).filter (fun x => key x = key a') =
      (a' :: as').filter fun x => key x = key a') : key a ≤ key a' := by
  have hmem : a' ∈ (a :: as).filter fun x => key x = key a' := by
    rw [hfilter]
    exact List.mem_filter.2 ⟨List.mem_cons_self, decide_eq_true rfl⟩
  rcases List.mem_cons.1 (List.mem_filter.1 hmem).1 with rfl | hmem
  · exact le_rfl
  · exact List.rel_of_pairwise_cons h hmem

/-- Lists that ascend by a key are equal if they have the same elements of each key in the same order. -/
theorem eq_of_filter_eq (h : as.Pairwise fun x y => key x ≤ key y)
    (h' : as'.Pairwise fun x y => key x ≤ key y)
    (hfilter : ∀ n, as.filter (fun a => key a = n) = as'.filter fun a => key a = n) : as = as' := by
  induction as generalizing as' with
  | nil =>
    cases as' with
    | nil => rfl
    | cons a' as' => simpa using hfilter (key a')
  | cons a as ih =>
    cases as' with
    | nil => simpa using hfilter (key a)
    | cons a' as' =>
      -- Each of the first elements is in the other list, so neither has the greater key.
      have hkey : key a = key a' :=
        le_antisymm (key_le_of_filter_eq h (hfilter (key a')))
          (key_le_of_filter_eq h' (hfilter (key a)).symm)
      -- Both are the first of their key, so they are one element.
      have hfirst := hfilter (key a)
      rw [List.filter_cons_of_pos (by simp), List.filter_cons_of_pos (by simp [hkey])] at hfirst
      obtain ⟨rfl, hrest⟩ := List.cons.inj hfirst
      rw [ih h.of_cons h'.of_cons]
      intro n
      have hn := hfilter n
      by_cases ha : key a = n
      · rw [← ha]
        exact hrest
      · rwa [List.filter_cons_of_neg (by simpa using ha), List.filter_cons_of_neg (by simpa using ha)] at hn

end

namespace SortMetric

variable {m : SortMetric} {rows arranged arranged' : List (String × Usage b)}

/-- Rows arranged by a metric: the same rows in ascending order, and those that tie as they came. -/
structure Arranges (m : SortMetric) (rows arranged : List (String × Usage b)) : Prop where
  perm : arranged.Perm rows
  ascending : arranged.Pairwise fun x y => m.of x.2 ≤ m.of y.2
  ties : ∀ n, arranged.filter (fun row => m.of row.2 = n) = rows.filter fun row => m.of row.2 = n

/-- There is one way to arrange rows. -/
theorem Arranges.eq (h : m.Arranges rows arranged) (h' : m.Arranges rows arranged') :
    arranged = arranged' :=
  eq_of_filter_eq h.ascending h'.ascending fun n => (h.ties n).trans (h'.ties n).symm

/-- Rows that are left out on both sides do not disturb the others. -/
theorem Arranges.filter (h : m.Arranges rows arranged) (p : String × Usage b → Bool) :
    m.Arranges (rows.filter p) (arranged.filter p) where
  perm := h.perm.filter p
  ascending := h.ascending.filter p
  ties := by
    intro n
    rw [List.filter_comm, h.ties n, List.filter_comm]

/-- Rows that tie are in ascending order as they come, and sorting keeps what is in order. -/
theorem arranges_sort (m : SortMetric) (rows : List (String × Usage b)) :
    m.Arranges rows (m.sort rows) where
  perm := sort_perm m rows
  ascending := pairwise_sort m rows
  ties := by
    intro n
    have hties : (rows.filter fun row => m.of row.2 = n).Pairwise
        fun x y => decide (m.of x.2 ≤ m.of y.2) = true := by
      apply List.pairwise_of_forall_mem_list
      intro x hx y hy
      have hxn : m.of x.2 = n := of_decide_eq_true (List.mem_filter.1 hx).2
      have hyn : m.of y.2 = n := of_decide_eq_true (List.mem_filter.1 hy).2
      exact decide_eq_true (hxn.trans hyn.symm).le
    have hsorted : (rows.filter fun row => m.of row.2 = n).Sublist (m.sort rows) :=
      List.sublist_mergeSort m.decide_le_trans m.decide_le_total hties List.filter_sublist
    have hsub : (rows.filter fun row => m.of row.2 = n).Sublist
        ((m.sort rows).filter fun row => m.of row.2 = n) := by
      simpa only [List.filter_filter, Bool.and_self] using hsorted.filter fun row => m.of row.2 = n
    -- Both have the rows of the tie once each, so neither has more of them.
    exact (hsub.eq_of_length ((sort_perm m rows).filter _).length_eq.symm).symm

/-- Selecting rows before they are sorted is selecting them afterwards. -/
theorem sort_filter (m : SortMetric) (rows : List (String × Usage b)) (p : String × Usage b → Bool) :
    m.sort (rows.filter p) = (m.sort rows).filter p :=
  (arranges_sort m (rows.filter p)).eq ((arranges_sort m rows).filter p)

end SortMetric

/-! ### Tables -/

namespace Report

/-- The number in the first cell of a line, behind the room of a title. -/
def announced? (line : String) : Option ℤ :=
  (cellsOf 6 line.toList).head?.bind fun cell => Text.number? (cell.drop (keyWidth - 9))

/-- The lines of a table that shows some rows: three above them, the first of which begins with the title
and tells how many rows follow, and one for each row. -/
def TableShows (title : String) (rows : List (String × Usage b)) (table : List Row) : Prop :=
  ∃ names labels rule, table = [names, labels, rule].map plainRow ++ rows.map (keyRow (widthsOf rows)) ∧
    title.toList <+: names.toList ∧ announced? names = some (rows.length : ℤ)

/-- The first cell of a line of names. -/
theorem head?_namesLine {columns : List Column} (first : String) (h : Named columns) :
    (cellsOf (columns.length + 1) (namesLine first columns).toList).head? = some first.toList := by
  have hbars : ∀ cell ∈ (columns.map (fun c => Text.padEnd c.2 c.1) ++
      ["File Size Buckets"]).map String.toList, '|' ∉ cell := by
    intro cell hcell
    obtain ⟨text, htext, rfl⟩ := List.mem_map.1 hcell
    rcases List.mem_append.1 htext with htext | htext
    · exact not_mem_names h text htext
    · rw [List.mem_singleton.1 htext]
      decide
  have hcells := cellsOf_line first.toList hbars
  rw [List.length_map, List.length_append, List.length_map, List.length_singleton] at hcells
  rw [namesLine, toList_joinCells, hcells, List.head?_cons]

/-- The number of rows is read back behind a short title. -/
theorem announced?_namesLine {title : String} (h : title.length ≤ keyWidth - 9) (n : ℕ) :
    announced? (namesLine (Text.padEnd (keyWidth - 9) title ++ Text.padStart 9 (toString n)) usageColumns) =
      some (n : ℤ) := by
  have hroom : (Text.padEnd (keyWidth - 9) title).toList.length = keyWidth - 9 := by
    rw [String.length_toList, Text.length_padEnd, max_eq_left h]
  show (cellsOf (usageColumns.length + 1) _).head?.bind _ = _
  rw [head?_namesLine _ named_usageColumns, Option.bind_some, String.toList_append, List.drop_left' hroom]
  exact Text.number?_padStart 9 (n : ℤ)

theorem tableShows_keyTable {title : String} (h : title.length ≤ keyWidth - 9)
    (rows : List (String × Usage b)) : TableShows title rows (keyTable title rows) := by
  obtain ⟨rule, hheader⟩ := headerLines_eq (Text.padEnd (keyWidth - 9) title ++
    Text.padStart 9 (toString rows.length)) usageColumns (bucketHeader b.spelledLabels (widthsOf rows))
  refine ⟨_, _, rule, congrArg (·.map plainRow ++ _) hheader, ?_, announced?_namesLine h rows.length⟩
  rw [namesLine, toList_joinCells, lineOf, String.toList_append, Text.toList_padEnd, List.append_assoc,
    List.append_assoc]
  exact List.prefix_append _ _

/-! ### What is shown of a report -/

variable {r : Report b}

/-- What is shown of a report with some options: behind the head a table of all groups and one of the
selected users, both arranged by the metric.  It is printed up to the first line that cannot be written. -/
structure Shows (r : Report b) (o : ReportOptions) : Prop where
  groups : o.metric.Arranges r.groups (r.groupRows o)
  users : o.metric.Arranges (r.users.filter fun row => o.filter.selects row.1) (r.userRows o)
  tables : ∃ groupTable userTable,
    r.rows o = r.head ++ groupTable ++ [plainRow ""] ++ userTable ∧
      TableShows "By group:" (r.groupRows o) groupTable ∧ TableShows "By user:" (r.userRows o) userTable
  printed : (r.print o).1 = unlines ((r.rows o).takeWhile (·.writable))
  complete : (r.print o).2 = none ↔ (r.rows o).takeWhile (·.writable) = r.rows o

theorem shows (r : Report b) (o : ReportOptions) : r.Shows o where
  groups := o.metric.arranges_sort r.groups
  users := o.metric.arranges_sort _
  tables := ⟨_, _, rfl, tableShows_keyTable (by decide) _, tableShows_keyTable (by decide) _⟩
  printed := by
    by_cases hall : (r.rows o).all (·.writable) = true
    · rw [print, if_pos hall, List.takeWhile_eq_self_iff.2 (List.all_eq_true.1 hall)]
    · rw [print, if_neg hall]
  complete := by
    rw [List.takeWhile_eq_self_iff, ← List.all_eq_true]
    by_cases hall : (r.rows o).all (·.writable) = true
    · rw [print, if_pos hall]
      exact iff_of_true rfl hall
    · rw [print, if_neg hall]
      exact iff_of_false nofun hall

/-- Another filter changes nothing above the table by user, and only leaves out rows of that. -/
structure KeptByFilters (r : Report b) (m : SortMetric) : Prop where
  above : ∃ before, ∀ f, r.rows ⟨m, f⟩ = before ++ keyTable "By user:" (r.userRows ⟨m, f⟩)
  keys : ∀ f, ((r.userRows ⟨m, f⟩).map Prod.fst).Sublist ((r.userRows ⟨m, .all⟩).map Prod.fst)

theorem keptByFilters (r : Report b) (m : SortMetric) : r.KeptByFilters m where
  above := ⟨r.head ++ keyTable "By group:" (m.sort r.groups) ++ [plainRow ""], fun _ => rfl⟩
  keys := by
    intro f
    have hrows : r.userRows ⟨m, f⟩ = (m.sort r.users).filter fun row => f.selects row.1 :=
      m.sort_filter r.users fun row => f.selects row.1
    rw [hrows, userRows_all]
    exact List.filter_sublist.map Prod.fst

/-- Another metric only moves the rows of each table by key. -/
def KeptByMetrics (r : Report b) (f : NameFilter) : Prop :=
  ∃ groupHeader groupLines userHeader userLines, groupHeader.length = 3 ∧ userHeader.length = 3 ∧
    ∀ m, ∃ groupLines' userLines', groupLines'.Perm groupLines ∧ userLines'.Perm userLines ∧
      r.rows ⟨m, f⟩ = r.head ++ (groupHeader ++ groupLines') ++ [plainRow ""] ++ (userHeader ++ userLines')

/-- The lines of a table by key, up to the order of its rows. -/
theorem keyTable_sort (m : SortMetric) (title : String) (rows : List (String × Usage b)) :
    ∃ lines, lines.Perm (rows.map (keyRow (widthsOf rows))) ∧
      keyTable title (m.sort rows) = (keyHeader title rows).map plainRow ++ lines := by
  refine ⟨_, (m.sort_perm rows).map _, ?_⟩
  rw [keyTable, keyHeader_perm (m.sort_perm rows), widthsOf_perm (m.sort_perm rows)]

theorem keptByMetrics (r : Report b) (f : NameFilter) : r.KeptByMetrics f := by
  let selected := r.users.filter fun row => f.selects row.1
  refine ⟨(keyHeader "By group:" r.groups).map plainRow, r.groups.map (keyRow (widthsOf r.groups)),
    (keyHeader "By user:" selected).map plainRow, selected.map (keyRow (widthsOf selected)),
    rfl, rfl, fun m => ?_⟩
  obtain ⟨groupLines, hgroups, hgroupTable⟩ := keyTable_sort m "By group:" r.groups
  obtain ⟨userLines, husers, huserTable⟩ := keyTable_sort m "By user:" selected
  refine ⟨groupLines, userLines, hgroups, husers, ?_⟩
  rw [← hgroupTable, ← huserTable]
  rfl

end Report

theorem NameFilter.ofJson_absent (facilities : Facilities) {given : Json} (h : given.isPresent = false) :
    NameFilter.ofJson facilities given = .ok .all := by
  unfold ofJson
  rw [h]
  rfl

end UsageLedger
