/-
UsageLedger/Proofs/Report/Lossless.lean

The rows of a report lose nothing.  The cells at the end of a row, cut off at the last
separators, show the numbers of a usage and what is in each of its buckets, however wide
the numbers are and whatever the key in front of them is (`Report.rows_lossless`).
-/
import UsageLedger.Proofs.Report.Buckets

namespace UsageLedger

variable {b : Borders}

/-- Cells show a usage: in all cells but the last stand some numbers, and then the directories, the
symbolic links, the files, the whole mebibytes and the blocks; in the last cell stands, between single
blanks, what is in each bucket. -/
structure ShowsUsage (before : List ℤ) (u : Usage b) (cells : List (List Char)) : Prop where
  numbers : cells.dropLast.map Text.number? =
    (before ++ [(u.directories : ℤ), u.symlinks, u.files, u.bytes / 1048576, u.blocks]).map some
  buckets : ∃ last ∈ cells.getLast?, (Text.pieces ' ' last).length = b.values.length + 1 ∧
    (Text.pieces ' ' last).map Text.number? = u.sizes.counts.map fun n : ℕ => some (n : ℤ)

/-- The cells of a row show its usage. -/
theorem showsUsage_cells (u : Usage b) {before : List ℤ} {columns : List Column} {widths : List ℕ}
    (hcolumns : columns.length = (before ++ u.values).length)
    (hwidths : widths.length = b.values.length + 1) :
    ShowsUsage before u ((numberCells columns (before ++ u.values)).map String.toList ++
      [(bucketCells widths u.sizes.counts).toList]) where
  numbers := by
    rw [List.dropLast_concat, number?_numberCells hcolumns, ← u.mebibytes_eq]
    rfl
  buckets := by
    have hcounts : u.sizes.counts.length = widths.length := u.sizes.length_counts.trans hwidths.symm
    have hne : u.sizes.counts ≠ [] := by
      rw [← List.length_pos_iff, u.sizes.length_counts]
      exact Nat.succ_pos _
    have hread := number?_bucketCells hne hcounts
    refine ⟨_, List.getLast?_concat, ?_, hread⟩
    have hlength := congrArg List.length hread
    rwa [List.length_map, List.length_map, u.sizes.length_counts] at hlength

/-- The lines of a table by key: under three others one for each row, from which the key as it is shown
and the usage are read back. -/
def IsLossless (rows : List (String × Usage b)) (table : List Row) : Prop :=
  ∃ header lines, table = header ++ lines ∧ header.length = 3 ∧
    List.Forall₂ (fun row line => ∃ cells,
      cellsOf 6 line.text.toList = (Report.keyCell row.1).toList :: cells ∧ ShowsUsage [] row.2 cells)
    rows lines

theorem isLossless_keyTable (title : String) (rows : List (String × Usage b)) :
    IsLossless rows (Report.keyTable title rows) := by
  have hwidths : (Report.widthsOf rows).length = b.values.length + 1 :=
    (length_bucketWidths _ _).trans b.length_spelledLabels
  refine ⟨_, _, rfl, rfl, ?_⟩
  rw [List.forall₂_map_right_iff, List.forall₂_same]
  intro row _
  have hcolumns : usageColumns.length = row.2.values.length := rfl
  have hcells := cellsOf_joinCells (Report.keyCell row.1) hcolumns
    (not_mem_bucketCells (Report.widthsOf rows) row.2.sizes.counts)
  rw [← Report.keyRow_text] at hcells
  exact ⟨_, hcells, showsUsage_cells row.2 hcolumns hwidths⟩

/-- **Rows are lossless.**  The row of the table for the whole shows, in the eight cells that its last
seven separators cut it into, the numbers of groups and users and the usage overall; each row of a table
by key shows, behind the key, its usage in the six cells after its last six separators. -/
theorem Report.rows_lossless (r : Report b) (o : ReportOptions) :
    (∃ header row, r.overallTable = header ++ [row] ∧
      ShowsUsage [(r.groups.length : ℤ), (r.users.length : ℤ)] r.overall
        (cellsOf 7 row.text.toList)) ∧
      IsLossless (r.groupRows o) (keyTable "By group:" (r.groupRows o)) ∧
      IsLossless (r.userRows o) (keyTable "By user:" (r.userRows o)) := by
  refine ⟨⟨_, _, r.overallTable_eq, ?_⟩, isLossless_keyTable _ _, isLossless_keyTable _ _⟩
  have hwidths : r.overallWidths.length = b.values.length + 1 :=
    (length_bucketWidths _ _).trans b.length_spelledLabels
  have hcolumns : overallColumns.length = r.overallValues.length := rfl
  have hinner : innerColumns.length = ((r.users.length : ℤ) :: r.overall.values).length := rfl
  -- The number of groups stands in the first cell, the other numbers behind it.
  have hcells := cellsOf_joinCells (Text.padStart 8 (toString (r.groups.length : ℤ))) hinner
    (not_mem_bucketCells r.overallWidths r.overall.sizes.counts)
  rw [← overallRow_text] at hcells
  have hshows := showsUsage_cells r.overall hcolumns hwidths
  show ShowsUsage _ _ (cellsOf (innerColumns.length + 1) _)
  rw [hcells, ← List.cons_append, ← List.map_cons, ← overallCells_eq]
  exact hshows

end UsageLedger
