/-
UsageLedger/Proofs/Report/Cells.lean

Lines taken apart again.  A line is cut at its last separators, counted from its end, so
that whatever stands in its first cell does not matter: if none of the cells behind the
first has a bar in it, the cut gives the cells back (`cellsOf_line`), and the separators
stand where the widths of the cells say (`separatorsOf_line`).
-/
import Mathlib.Data.Int.Notation
import Mathlib.Data.List.Induction
import UsageLedger.Proofs.Text.Aligned
import UsageLedger.Report.Table

namespace UsageLedger

/-! ### Cutting a line -/

/-- What stands behind a separator at the front. -/
def afterSeparator? : List Char → Option (List Char)
  | ' ' :: '|' :: ' ' :: cell => some cell
  | _ => none

/-- What stands before the last separator of a line, and what behind it. -/
def cutAtLast? : List Char → Option (List Char × List Char)
  | [] => none
  | c :: line =>
    match cutAtLast? line with
    | some (before, cell) => some (c :: before, cell)
    | none => (afterSeparator? (c :: line)).map fun cell => ([], cell)

/-- A line cut at its last `n` separators. -/
def cellsOf : ℕ → List Char → List (List Char)
  | 0, line => [line]
  | n + 1, line =>
    match cutAtLast? line with
    | some (before, cell) => cellsOf n before ++ [cell]
    | none => [line]

/-- Where the last `n` separators of a line stand. -/
def separatorsOf : ℕ → List Char → List ℕ
  | 0, _ => []
  | n + 1, line =>
    match cutAtLast? line with
    | some (before, _) => separatorsOf n before ++ [before.length]
    | none => []

variable {before cell first : List Char} {cells : List (List Char)}

theorem afterSeparator?_eq_none {c : Char} (h : '|' ∉ cell) : afterSeparator? (c :: cell) = none := by
  unfold afterSeparator?
  split
  · rename_i heq
    cases heq
    exact absurd List.mem_cons_self h
  · rfl

/-- Without a bar there is nothing to cut at. -/
theorem cutAtLast?_eq_none (h : '|' ∉ cell) : cutAtLast? cell = none := by
  induction cell with
  | nil => rfl
  | cons c cell ih =>
    have hcell : '|' ∉ cell := fun hc => h (List.mem_cons_of_mem c hc)
    rw [cutAtLast?, ih hcell, afterSeparator?_eq_none hcell]
    rfl

/-- The cut is made at the separator behind which there is no bar. -/
theorem cutAtLast?_append (h : '|' ∉ cell) (before : List Char) :
    cutAtLast? (before ++ (' ' :: '|' :: ' ' :: cell)) = some (before, cell) := by
  induction before with
  | nil =>
    have hblank : cutAtLast? (' ' :: cell) = none := cutAtLast?_eq_none (by simp [h])
    have hbar : cutAtLast? ('|' :: ' ' :: cell) = none := by
      rw [cutAtLast?, hblank]
      rfl
    rw [List.nil_append, cutAtLast?, hbar]
    rfl
  | cons c before ih => rw [List.cons_append, cutAtLast?, ih]

/-! ### Lines of cells -/

/-- Cells as a line, character by character. -/
def lineOf (first : List Char) (cells : List (List Char)) : List Char :=
  first ++ cells.flatMap fun cell => ' ' :: '|' :: ' ' :: cell

theorem toList_joinCells (first : String) (cells : List String) :
    (joinCells (first :: cells)).toList = lineOf first.toList (cells.map String.toList) := by
  unfold joinCells lineOf
  induction cells generalizing first with
  | nil => simp
  | cons cell cells ih =>
    rw [String.intercalate_cons_cons, String.toList_append, ih, String.toList_append]
    simp [cellSeparator]

theorem map_length_toList (cells : List String) :
    (cells.map String.toList).map List.length = cells.map String.length := by
  rw [List.map_map]
  exact List.map_congr_left fun cell _ => String.length_toList

theorem lineOf_concat (first : List Char) (cells : List (List Char)) (cell : List Char) :
    lineOf first (cells ++ [cell]) = lineOf first cells ++ (' ' :: '|' :: ' ' :: cell) := by
  simp [lineOf]

/-- The cells behind the first are read back, whatever the first one is. -/
theorem cellsOf_line (first : List Char) (h : ∀ cell ∈ cells, '|' ∉ cell) :
    cellsOf cells.length (lineOf first cells) = first :: cells := by
  induction cells using List.reverseRecOn with
  | nil => simp [cellsOf, lineOf]
  | append_singleton cells cell ih =>
    have hcell : '|' ∉ cell := h cell (by simp)
    rw [List.length_append, List.length_singleton, lineOf_concat, cellsOf, cutAtLast?_append hcell]
    dsimp only
    rw [ih fun cell hc => h cell (List.mem_append_left _ hc), List.cons_append]

/-! ### Columns of cells -/

theorem exists_of_mem_zipWith {α β γ : Type} {f : α → β → γ} {as : List α} {bs : List β} {c : γ}
    (h : c ∈ List.zipWith f as bs) : ∃ a b, (a, b) ∈ as.zip bs ∧ f a b = c := by
  rw [← List.map_uncurry_zip_eq_zipWith] at h
  obtain ⟨⟨a, b⟩, hmem, rfl⟩ := List.mem_map.1 h
  exact ⟨a, b, hmem, rfl⟩

/-- Each cell of a row is made of one value; what is read of the cells is what is known of the values. -/
theorem map_zipWith_left {α β γ δ : Type} {f : α → β → γ} {g : γ → δ} {value : α → δ}
    (hg : ∀ a b, g (f a b) = value a) {as : List α} {bs : List β} (h : as.length ≤ bs.length) :
    (List.zipWith f as bs).map g = as.map value := by
  calc (List.zipWith f as bs).map g = (as.zip bs).map (g ∘ Function.uncurry f) := by
        rw [← List.map_uncurry_zip_eq_zipWith, List.map_map]
    _ = (as.zip bs).map (value ∘ Prod.fst) := List.map_congr_left fun e _ => hg e.1 e.2
    _ = as.map value := by rw [← List.map_map, List.map_fst_zip h]

/-- The numbers of a row, each in its column. -/
theorem numberCells_eq (columns : List Column) (values : List ℤ) :
    numberCells columns values =
      List.zipWith (fun n (c : Column) => Text.padStart c.2 (toString n)) values columns :=
  List.zipWith_comm

theorem length_numberCells {columns : List Column} {values : List ℤ}
    (h : columns.length = values.length) : (numberCells columns values).length = columns.length := by
  rw [numberCells, List.length_zipWith, ← h, Nat.min_self]

theorem not_mem_numberCells (columns : List Column) (values : List ℤ) :
    ∀ cell ∈ numberCells columns values, '|' ∉ cell.toList := by
  intro cell hcell
  obtain ⟨c, n, -, rfl⟩ := exists_of_mem_zipWith hcell
  exact Text.not_mem_padStart (by decide) (Text.not_mem_toString rfl (by decide) n) c.2

/-- The numbers of a row are read back. -/
theorem number?_numberCells {columns : List Column} {values : List ℤ}
    (h : columns.length = values.length) :
    ((numberCells columns values).map String.toList).map Text.number? = values.map some := by
  have hread (n : ℤ) (c : Column) :
      (Text.number? ∘ String.toList) (Text.padStart c.2 (toString n)) = some n := by
    rw [Function.comp_apply, Text.number?_padStart]
  rw [List.map_map, numberCells_eq]
  exact map_zipWith_left hread (Nat.le_of_eq h.symm)

/-- A line is cut into its first cell, whatever that is, its numbers and its last cell. -/
theorem cellsOf_joinCells (first : String) {columns : List Column} {values : List ℤ} {last : String}
    (h : columns.length = values.length) (hlast : '|' ∉ last.toList) :
    cellsOf (columns.length + 1) (joinCells (first :: (numberCells columns values ++ [last]))).toList =
      first.toList :: ((numberCells columns values).map String.toList ++ [last.toList]) := by
  have hbars : ∀ cell ∈ (numberCells columns values).map String.toList ++ [last.toList], '|' ∉ cell := by
    intro cell hcell
    rcases List.mem_append.1 hcell with hcell | hcell
    · obtain ⟨number, hnumber, rfl⟩ := List.mem_map.1 hcell
      exact not_mem_numberCells columns values number hnumber
    · exact List.mem_singleton.1 hcell ▸ hlast
  have hcells := cellsOf_line first.toList hbars
  rw [List.length_append, List.length_map, List.length_singleton, length_numberCells h] at hcells
  rw [toList_joinCells, List.map_append, List.map_singleton, hcells]

/-! ### Where the separators stand -/

/-- The end of a first column, and of the columns behind it. -/
def columnEnds (first : ℕ) : List ℕ → List ℕ
  | [] => [first]
  | width :: widths => first :: columnEnds (first + 3 + width) widths

theorem length_columnEnds (first : ℕ) (widths : List ℕ) :
    (columnEnds first widths).length = widths.length + 1 := by
  induction widths generalizing first with
  | nil => rfl
  | cons width widths ih => rw [columnEnds, List.length_cons, ih, List.length_cons]

theorem columnEnds_concat (first : ℕ) (widths : List ℕ) (width : ℕ) :
    columnEnds first (widths ++ [width]) =
      columnEnds first widths ++ [first + ((widths ++ [width]).map (3 + ·)).sum] := by
  induction widths generalizing first with
  | nil => simp [columnEnds, Nat.add_assoc]
  | cons w widths ih =>
    rw [List.cons_append, columnEnds, ih, columnEnds]
    simp only [List.cons_append, List.map_cons, List.sum_cons]
    congr 3
    omega

theorem length_lineOf (first : List Char) (cells : List (List Char)) :
    (lineOf first cells).length = first.length + ((cells.map List.length).map (3 + ·)).sum := by
  unfold lineOf
  rw [List.length_append, List.length_flatMap, List.map_map]
  congr 2
  refine List.map_congr_left fun cell _ => ?_
  simp only [List.length_cons, Function.comp_apply]
  omega

/-- The separators stand at the ends of the columns, whatever comes behind the last of them. -/
theorem separatorsOf_line (first : List Char) {last : List Char} (h : ∀ cell ∈ cells, '|' ∉ cell)
    (hlast : '|' ∉ last) :
    separatorsOf (cells.length + 1) (lineOf first (cells ++ [last])) =
      columnEnds first.length (cells.map List.length) := by
  induction cells using List.reverseRecOn generalizing last with
  | nil =>
    rw [lineOf_concat, separatorsOf, cutAtLast?_append hlast]
    simp [separatorsOf, lineOf, columnEnds]
  | append_singleton cells cell ih =>
    have hcell : '|' ∉ cell := h cell (by simp)
    have hcells : ∀ cell ∈ cells, '|' ∉ cell := fun cell hc => h cell (List.mem_append_left _ hc)
    rw [lineOf_concat, separatorsOf, cutAtLast?_append hlast]
    dsimp only
    rw [List.length_append, List.length_singleton, ih hcells hcell, length_lineOf, List.map_append,
      List.map_singleton, columnEnds_concat]

/-! ### The rows of a report -/

namespace Report

variable {b : Borders}

theorem keyRow_text (widths : List ℕ) (row : String × Usage b) :
    (keyRow widths row).text = joinCells (keyCell row.1 ::
      (numberCells usageColumns row.2.values ++ [bucketCells widths row.2.sizes.counts])) := rfl

/-- The numbers of the row for the whole. -/
def overallValues (r : Report b) : List ℤ :=
  [(r.groups.length : ℤ), (r.users.length : ℤ)] ++ r.overall.values

/-- The widths of the buckets in the table for the whole. -/
def overallWidths (r : Report b) : List ℕ := bucketWidths b.spelledLabels [r.overall.sizes.counts]

/-- The row for the whole. -/
def overallRow (r : Report b) : Row :=
  rowOf [] overallColumns r.overallValues r.overallWidths r.overall

/-- The columns behind the number of groups. -/
def innerColumns : List Column := ("#Users", 11) :: usageColumns

/-- The lines above the row for the whole. -/
def overallHeader (r : Report b) : List String :=
  headerLines (Text.padEnd 8 "#Groups") innerColumns (bucketHeader b.spelledLabels r.overallWidths)

theorem overallTable_eq (r : Report b) :
    r.overallTable = r.overallHeader.map plainRow ++ [r.overallRow] := rfl

/-- The numbers for the whole begin with the number of groups. -/
theorem overallCells_eq (r : Report b) :
    numberCells overallColumns r.overallValues =
      Text.padStart 8 (toString (r.groups.length : ℤ)) ::
        numberCells innerColumns (r.users.length :: r.overall.values) := rfl

theorem overallRow_text (r : Report b) :
    r.overallRow.text = joinCells (Text.padStart 8 (toString (r.groups.length : ℤ)) ::
      (numberCells innerColumns (r.users.length :: r.overall.values) ++
        [bucketCells r.overallWidths r.overall.sizes.counts])) := rfl

end Report

end UsageLedger
