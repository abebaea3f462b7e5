/-
UsageLedger/Proofs/Report/Columns.lean

The columns of a report line up.  The columns of the buckets are aligned in themselves
(`bucketsAligned`).  In front of them stand columns of fixed widths, which the names in
the first line above a table fill and the blanks in the second; so the separators of both
lines stand at the ends of these columns, and so do those of every row whose key and
numbers have room in them (`Report.tableAligned_keyTable`, `Report.tableAligned_overallTable`).
-/
import Mathlib.Algebra.Order.Ring.Int
import UsageLedger.Proofs.Report.Buckets
import UsageLedger.Proofs.Report.Ties

namespace UsageLedger

variable {b : Borders}

/-! ### Lines in fixed columns -/

/-- The separators of a line stand at the ends of its columns. -/
theorem separatorsOf_joinCells (first : String) {cells : List String} {last : String}
    (h : ∀ cell ∈ cells, '|' ∉ cell.toList) (hlast : '|' ∉ last.toList) :
    separatorsOf (cells.length + 1) (joinCells (first :: (cells ++ [last]))).toList =
      columnEnds first.length (cells.map String.length) := by
  have hcells : ∀ cell ∈ cells.map String.toList, '|' ∉ cell := by
    intro cell hcell
    obtain ⟨text, htext, rfl⟩ := List.mem_map.1 hcell
    exact h text htext
  have hline := separatorsOf_line first.toList hcells hlast
  rw [List.length_map, String.length_toList, map_length_toList] at hline
  rw [toList_joinCells, List.map_append, List.map_singleton, hline]

/-- Lines of cells of the same lengths are of the same length. -/
theorem length_joinCells_eq {first first' : String} {cells cells' : List String}
    (hfirst : first.length = first'.length)
    (hcells : cells.map String.length = cells'.map String.length) :
    (joinCells (first :: cells)).length = (joinCells (first' :: cells')).length := by
  rw [← String.length_toList, ← String.length_toList, toList_joinCells, toList_joinCells, length_lineOf,
    length_lineOf, map_length_toList, map_length_toList, String.length_toList, String.length_toList,
    hfirst, hcells]

theorem length_blanks (width : ℕ) : (blanks width).length = width := by
  rw [blanks, String.length_ofList, List.length_replicate]

/-- Every number has room in its column. -/
def Fits (columns : List Column) (values : List ℤ) : Prop :=
  List.Forall₂ (fun (c : Column) n => (toString n).length ≤ c.2) columns values

instance (columns : List Column) (values : List ℤ) : Decidable (Fits columns values) :=
  inferInstanceAs (Decidable (List.Forall₂ _ columns values))

theorem Fits.map_length {columns : List Column} {values : List ℤ} (h : Fits columns values) :
    (numberCells columns values).map String.length = columns.map Prod.snd := by
  induction h with
  | nil => rfl
  | cons hfits _ ih =>
    rw [numberCells, List.zipWith_cons_cons, List.map_cons, List.map_cons, Text.length_padStart,
      max_eq_left hfits]
    exact congrArg _ ih

/-- Names that have room in their columns. -/
def Named (columns : List Column) : Prop := ∀ c ∈ columns, '|' ∉ c.1.toList ∧ c.1.length ≤ c.2

instance (columns : List Column) : Decidable (Named columns) :=
  inferInstanceAs (Decidable (∀ c ∈ columns, _ ∧ _))

/-! ### Header lines -/

variable {first : String} {columns : List Column} {buckets : String}

/-- The first line above the rows: names. -/
def namesLine (first : String) (columns : List Column) : String :=
  joinCells (first :: (columns.map (fun c => Text.padEnd c.2 c.1) ++ ["File Size Buckets"]))

/-- The second line above the rows: blanks, and the labels of the buckets. -/
def labelsLine (width : ℕ) (columns : List Column) (buckets : String) : String :=
  joinCells (blanks width :: (columns.map (fun c => blanks c.2) ++ [buckets]))

theorem headerLines_eq (first : String) (columns : List Column) (buckets : String) :
    ∃ rule, headerLines first columns buckets =
      [namesLine first columns, labelsLine first.length columns buckets, rule] := ⟨_, rfl⟩

theorem not_mem_names (h : Named columns) :
    ∀ cell ∈ columns.map fun c => Text.padEnd c.2 c.1, '|' ∉ cell.toList := by
  intro cell hcell
  obtain ⟨c, hc, rfl⟩ := List.mem_map.1 hcell
  exact Text.not_mem_padEnd (by decide) (h c hc).1 c.2

theorem separatorsOf_namesLine (first : String) (h : Named columns) :
    separatorsOf (columns.length + 1) (namesLine first columns).toList =
      columnEnds first.length (columns.map Prod.snd) := by
  have hlengths : (columns.map fun c => Text.padEnd c.2 c.1).map String.length =
      columns.map Prod.snd := by
    rw [List.map_map]
    refine List.map_congr_left fun c hc => ?_
    rw [Function.comp_apply, Text.length_padEnd, max_eq_left (h c hc).2]
  have hlast : '|' ∉ "File Size Buckets".toList := by decide
  have hline := separatorsOf_joinCells first (not_mem_names h) hlast
  rwa [List.length_map, hlengths] at hline

theorem map_length_blanks (columns : List Column) :
    (columns.map fun c => blanks c.2).map String.length = columns.map Prod.snd := by
  rw [List.map_map]
  exact List.map_congr_left fun c _ => length_blanks c.2

theorem separatorsOf_labelsLine (width : ℕ) (columns : List Column) (h : '|' ∉ buckets.toList) :
    separatorsOf (columns.length + 1) (labelsLine width columns buckets).toList =
      columnEnds width (columns.map Prod.snd) := by
  have hbars : ∀ cell ∈ columns.map (fun c => blanks c.2), '|' ∉ cell.toList := by
    intro cell hcell
    obtain ⟨c, hc, rfl⟩ := List.mem_map.1 hcell
    rw [blanks, String.toList_ofList]
    exact fun hbar => absurd (List.eq_of_mem_replicate hbar) (by decide)
  have hline := separatorsOf_joinCells (blanks width) hbars h
  rwa [List.length_map, length_blanks, map_length_blanks] at hline

/-- Two lines above a table have `n` separators each, at the same places. -/
structure HeaderAligned (n : ℕ) (names labels : String) : Prop where
  count : (separatorsOf n labels.toList).length = n
  separators : separatorsOf n names.toList = separatorsOf n labels.toList

/-- A row has its last `n` separators where the second line above the table has them, and ends where
that line ends. -/
structure RowAligned (n : ℕ) (labels row : String) : Prop where
  separators : separatorsOf n row.toList = separatorsOf n labels.toList
  length : row.length = labels.length

theorem headerAligned (first : String) (hnamed : Named columns) (h : '|' ∉ buckets.toList) :
    HeaderAligned (columns.length + 1) (namesLine first columns)
      (labelsLine first.length columns buckets) where
  count := by
    rw [separatorsOf_labelsLine _ _ h, length_columnEnds, List.length_map]
  separators := by
    rw [separatorsOf_namesLine first hnamed, separatorsOf_labelsLine _ _ h]

/-- A row is aligned if its first cell is as wide as that of the lines above, its numbers have room in
their columns, and its buckets are as wide as their labels. -/
theorem rowAligned {values : List ℤ} {last : String} (hfits : Fits columns values)
    (hlast : '|' ∉ last.toList) (hbuckets : '|' ∉ buckets.toList) (hlength : last.length = buckets.length) :
    RowAligned (columns.length + 1) (labelsLine first.length columns buckets)
      (joinCells (first :: (numberCells columns values ++ [last]))) where
  separators := by
    have hcount : (numberCells columns values).length = columns.length := by
      rw [← List.length_map (f := String.length), hfits.map_length, List.length_map]
    have hline := separatorsOf_joinCells first (not_mem_numberCells columns values) hlast
    rw [hcount, hfits.map_length] at hline
    rw [hline, separatorsOf_labelsLine _ _ hbuckets]
  length := by
    apply length_joinCells_eq (length_blanks _).symm
    rw [List.map_append, List.map_append, hfits.map_length, map_length_blanks, List.map_singleton,
      List.map_singleton, hlength]

/-! ### Tables -/

/-- The lines of a table: two header lines that are aligned, a rule, and a row for each entry; where an
entry has room, its row is aligned with the header. -/
def TableAligned {α : Type} (n : ℕ) (entries : List α) (HasRoom : α → Prop) (table : List Row) : Prop :=
  ∃ names labels rule lines, table = [names, labels, rule].map plainRow ++ lines ∧
    HeaderAligned n names labels ∧
    List.Forall₂ (fun e line => HasRoom e → RowAligned n labels line.text) entries lines

theorem tableAligned {α : Type} {entries : List α} {HasRoom : α → Prop} {line : α → Row}
    (first : String) (hnamed : Named columns) (hbuckets : '|' ∉ buckets.toList)
    (hline : ∀ e ∈ entries, HasRoom e →
      RowAligned (columns.length + 1) (labelsLine first.length columns buckets) (line e).text) :
    TableAligned (columns.length + 1) entries HasRoom
      ((headerLines first columns buckets).map plainRow ++ entries.map line) := by
  obtain ⟨rule, hheader⟩ := headerLines_eq first columns buckets
  refine ⟨_, _, rule, _, congrArg (·.map plainRow ++ _) hheader, headerAligned first hnamed hbuckets, ?_⟩
  rw [List.forall₂_map_right_iff, List.forall₂_same]
  exact hline

namespace Report

/-- The table is not too long to tell its length in the title, and the key and the numbers of the row have
room in their columns. -/
def HasRoom (rows : List (String × Usage b)) (row : String × Usage b) : Prop :=
  rows.length < 10 ^ 9 ∧ row.1.length ≤ keyWidth ∧ Fits usageColumns row.2.values

instance (rows : List (String × Usage b)) (row : String × Usage b) : Decidable (HasRoom rows row) :=
  inferInstanceAs (Decidable (_ ∧ _ ∧ _))

theorem length_keyCell {key : String} (h : key.length ≤ keyWidth) : (keyCell key).length = keyWidth := by
  rw [keyCell, Text.length_padStart]
  apply max_eq_left
  split
  · decide
  · exact h

/-- A short title and the number of rows take the room of a key. -/
theorem length_titleCell {title : String} (h : title.length ≤ keyWidth - 9) {n : ℕ} (hn : n < 10 ^ 9) :
    (Text.padEnd (keyWidth - 9) title ++ Text.padStart 9 (toString n)).length = keyWidth := by
  have hdigits : (toString n).length ≤ 9 := (Nat.length_repr_le_iff (by decide)).2 hn
  rw [String.length_append, Text.length_padEnd, Text.length_padStart, max_eq_left h, max_eq_left hdigits]
  rfl

theorem named_usageColumns : Named usageColumns := by decide

theorem named_innerColumns : Named innerColumns := by decide

/-- Under a short title the lines of a table by key are aligned. -/
theorem tableAligned_keyTable {title : String} (htitle : title.length ≤ keyWidth - 9)
    (rows : List (String × Usage b)) : TableAligned 6 rows (HasRoom rows) (keyTable title rows) := by
  have haligned := bucketsAligned_map (fun row : String × Usage b => row.2.sizes) rows
  have hbuckets := not_mem_bucketHeader b.not_mem_spelledLabels (widthsOf rows)
  apply tableAligned _ named_usageColumns hbuckets
  rintro row hrow ⟨hshort, hkey, hfits⟩
  have hlast := not_mem_bucketCells (widthsOf rows) row.2.sizes.counts
  have hlength := haligned.length_cells _ (List.mem_map_of_mem hrow)
  rw [length_titleCell htitle hshort, ← length_keyCell hkey, keyRow_text]
  exact rowAligned hfits hlast hbuckets hlength

/-- The number of groups has room in the first cell if it has room in its column. -/
theorem tableAligned_overallTable (r : Report b) :
    TableAligned 7 [r] (fun r => Fits overallColumns r.overallValues) r.overallTable := by
  have haligned := bucketsAligned_map (fun r : Report b => r.overall.sizes) [r]
  have hbuckets := not_mem_bucketHeader b.not_mem_spelledLabels r.overallWidths
  show TableAligned 7 [r] _ (r.overallHeader.map plainRow ++ [r].map overallRow)
  apply tableAligned _ named_innerColumns hbuckets
  intro r' hr hfits
  obtain rfl := List.mem_singleton.1 hr
  have hlast := not_mem_bucketCells r'.overallWidths r'.overall.sizes.counts
  have hlength := haligned.length_cells _ List.mem_cons_self
  -- The number of groups is the first cell, and the lines above it begin with the name of its column.
  cases hfits with
  | cons hgroups hinner =>
    have hfirst : (Text.padStart 8 (toString (r'.groups.length : ℤ))).length = 8 := by
      rw [Text.length_padStart, max_eq_left hgroups]
    show RowAligned _ (labelsLine 8 _ _) _
    rw [← hfirst, overallRow_text]
    exact rowAligned hinner hlast hbuckets hlength

/-- **Columns line up.**  The buckets of any histograms are aligned with their labels.  In each table of a
report the separators stand at the same places in both header lines and in every row that has room, and
such a row is as long as the second header line. -/
theorem columns_line_up (r : Report b) (o : ReportOptions) (histograms : List (Histogram b)) :
    BucketsAligned b.spelledLabels (histograms.map (·.counts)) ∧
      TableAligned 7 [r] (fun r => Fits overallColumns r.overallValues) r.overallTable ∧
      TableAligned 6 (r.groupRows o) (HasRoom (r.groupRows o)) (keyTable "By group:" (r.groupRows o)) ∧
      TableAligned 6 (r.userRows o) (HasRoom (r.userRows o)) (keyTable "By user:" (r.userRows o)) :=
  ⟨bucketsAligned_map id histograms, tableAligned_overallTable r, tableAligned_keyTable (by decide) _,
    tableAligned_keyTable (by decide) _⟩

/-- The rows of two small files, one of them without a group, have room. -/
theorem columns_line_up_twoFiles :
    ∃ rows, rows = (ofVisits .standard "/" (twoFiles.map (·.2))).groupRows ⟨.files, .all⟩ ∧
      (∀ row ∈ rows, HasRoom rows row) ∧ TableAligned 6 rows (HasRoom rows) (keyTable "By group:" rows) := by
  refine ⟨_, rfl, ?_, (columns_line_up _ ⟨.files, .all⟩ []).2.2.1⟩
  have hperm := SortMetric.files.sort_perm (ofVisits .standard "/" (twoFiles.map (·.2))).groups
  intro row hrow
  have hroom : ∀ row ∈ (ofVisits .standard "/" (twoFiles.map (·.2))).groups,
      HasRoom (ofVisits .standard "/" (twoFiles.map (·.2))).groups row := by decide +kernel
  obtain ⟨hshort, hkey, hfits⟩ := hroom row (hperm.mem_iff.1 hrow)
  exact ⟨hperm.length_eq.trans_lt hshort, hkey, hfits⟩

end Report

end UsageLedger
