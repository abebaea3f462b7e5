/-
UsageLedger/Proofs/Report/Buckets.lean

The columns of the buckets.  Each column is just wide enough for its label and for the
counts of all rows (`isLeast_bucketWidths`), so labels and counts fill their columns
exactly, every column starts at the same place in the header and in each row, and all of
them end together (`bucketColumns`).  The counts of a row are read back between single
blanks (`number?_bucketCells`).
-/
import Mathlib.Data.List.Forall2
import Mathlib.Order.Bounds.Basic
import UsageLedger.Proofs.Report.Cells
import UsageLedger.Proofs.Size.Labels
import UsageLedger.Text.Pieces

namespace UsageLedger

/-! ### Widths -/

theorem length_widen (widths counts : List ℕ) : (widen widths counts).length = widths.length := by
  induction widths generalizing counts with
  | nil => rfl
  | cons w widths ih =>
    cases counts with
    | nil => rfl
    | cons n counts => exact congrArg (· + 1) (ih counts)

theorem length_bucketWidths (labels : List String) (rows : List (List ℕ)) :
    (bucketWidths labels rows).length = labels.length := by
  have hfold (widths : List ℕ) : (rows.foldl widen widths).length = widths.length := by
    induction rows generalizing widths with
    | nil => rfl
    | cons counts rows ih => rw [List.foldl_cons, ih, length_widen]
  rw [bucketWidths, hfold, List.length_map]

/-- A row widens each column for its own count only. -/
theorem getElem?_widen (widths counts : List ℕ) (j : ℕ) :
    (widen widths counts)[j]? =
      widths[j]?.map fun w => counts[j]?.elim w fun n => max w (toString n).length := by
  induction widths generalizing counts j with
  | nil => simp [widen]
  | cons w widths ih =>
    cases counts with
    | nil => simp [widen]
    | cons n counts =>
      cases j with
      | zero => rfl
      | succ j => exact ih counts j

/-- The widths of a column, from a least one on, that fit what every row has there. -/
def fittingWidths (least : ℕ) (rows : List (List ℕ)) (j : ℕ) : Set ℕ :=
  {w | least ≤ w ∧ ∀ counts ∈ rows, ∀ n ∈ counts[j]?, (toString n).length ≤ w}

theorem fittingWidths_cons (least : ℕ) (counts : List ℕ) (rows : List (List ℕ)) (j : ℕ) :
    fittingWidths least (counts :: rows) j =
      fittingWidths (counts[j]?.elim least fun n => max least (toString n).length) rows j := by
  ext w
  simp only [fittingWidths, Set.mem_ofPred_eq, List.forall_mem_cons]
  cases counts[j]? with
  | none => simp
  | some n => simp [and_assoc]

theorem isLeast_foldl_widen {widths : List ℕ} {rows : List (List ℕ)} {j least width : ℕ}
    (hleast : widths[j]? = some least) (hwidth : (rows.foldl widen widths)[j]? = some width) :
    IsLeast (fittingWidths least rows j) width := by
  induction rows generalizing widths least with
  | nil =>
    obtain rfl : least = width := Option.some.inj (hleast.symm.trans hwidth)
    exact ⟨⟨le_rfl, nofun⟩, fun w hw => hw.1⟩
  | cons counts rows ih =>
    rw [fittingWidths_cons]
    apply ih ?_ hwidth
    rw [getElem?_widen, hleast, Option.map_some]

/-- **The width of a column** is the least that fits its label and all its counts. -/
theorem isLeast_bucketWidths {labels : List String} {rows : List (List ℕ)} {j : ℕ} {label : String}
    {width : ℕ} (hlabel : labels[j]? = some label)
    (hwidth : (bucketWidths labels rows)[j]? = some width) :
    IsLeast (fittingWidths label.length rows j) width := by
  refine isLeast_foldl_widen ?_ hwidth
  rw [List.getElem?_map, hlabel, Option.map_some]

/-! ### Columns -/

/-- Cells of the widths of their columns. -/
theorem map_length_zipWith {α : Type} {f : α → ℕ → String} {as : List α} {widths : List ℕ}
    (h : List.Forall₂ (fun a w => (f a w).length = w) as widths) :
    (List.zipWith f as widths).map String.length = widths := by
  induction h with
  | nil => rfl
  | cons hlength _ ih => rw [List.zipWith_cons_cons, List.map_cons, hlength, ih]

/-- Where a column starts, with a blank between columns. -/
def columnStart (widths : List ℕ) (j : ℕ) : ℕ := ((widths.take j).map (· + 1)).sum

/-- A text stands in a line from some place on. -/
def StandsAt (cell : String) (start : ℕ) (line : String) : Prop :=
  cell.toList <+: line.toList.drop start

theorem prefix_drop_intercalate {cells : List (List Char)} {j : ℕ} {cell : List Char}
    (h : cells[j]? = some cell) :
    cell <+: ([' '].intercalate cells).drop (columnStart (cells.map List.length) j) := by
  induction cells generalizing j with
  | nil => cases h
  | cons first cells ih =>
    cases j with
    | zero =>
      obtain rfl : first = cell := Option.some.inj h
      rw [columnStart, List.take_zero, List.map_nil, List.sum_nil, List.drop_zero]
      cases cells with
      | nil => exact ⟨[], by rw [List.intercalate_singleton, List.append_nil]⟩
      | cons next cells =>
        rw [List.intercalate_cons_cons, List.append_assoc]
        exact List.prefix_append _ _
    | succ j =>
      cases cells with
      | nil => cases h
      | cons next cells =>
        have hstart : columnStart ((first :: next :: cells).map List.length) (j + 1) =
            (first ++ [' ']).length + columnStart ((next :: cells).map List.length) j := by
          simp [columnStart]
        rw [hstart, List.intercalate_cons_cons, List.drop_length_add_append]
        exact ih h

theorem length_intercalate (first : List Char) (cells : List (List Char)) :
    ([' '].intercalate (first :: cells)).length + 1 =
      (((first :: cells).map List.length).map (· + 1)).sum := by
  induction cells generalizing first with
  | nil => simp
  | cons next cells ih =>
    have hrest := ih next
    rw [List.intercalate_cons_cons]
    simp only [List.length_append, List.length_singleton, List.map_cons, List.sum_cons] at hrest ⊢
    omega

/-- Cells between single blanks stand at the starts of their columns. -/
theorem standsAt_intercalate {cells : List String} {widths : List ℕ}
    (hwidths : cells.map String.length = widths) {j : ℕ} {cell : String} (h : cells[j]? = some cell) :
    StandsAt cell (columnStart widths j) (" ".intercalate cells) := by
  unfold StandsAt
  rw [String.toList_intercalate, ← hwidths, ← map_length_toList]
  apply prefix_drop_intercalate
  rw [List.getElem?_map, h, Option.map_some]

/-- Lines of columns of the same widths are of the same length. -/
theorem length_intercalate_eq {cells cells' : List String}
    (h : cells.map String.length = cells'.map String.length) :
    (" ".intercalate cells).length = (" ".intercalate cells').length := by
  cases cells with
  | nil =>
    obtain rfl : cells' = [] := List.map_eq_nil_iff.1 h.symm
    rfl
  | cons first cells =>
    cases cells' with
    | nil => cases h
    | cons first' cells' =>
      have hlength := length_intercalate first.toList (cells.map String.toList)
      have hlength' := length_intercalate first'.toList (cells'.map String.toList)
      rw [← List.map_cons, map_length_toList, h] at hlength
      rw [← List.map_cons, map_length_toList] at hlength'
      rw [← String.length_toList, ← String.length_toList, String.toList_intercalate,
        String.toList_intercalate]
      exact Nat.add_right_cancel (hlength.trans hlength'.symm)

/-! ### The columns of a table -/

variable {labels : List String} {rows : List (List ℕ)} {counts : List ℕ}

theorem forall₂_labels (labels : List String) (rows : List (List ℕ)) :
    List.Forall₂ (fun l w => (Text.padStart w l).length = w) labels (bucketWidths labels rows) := by
  refine List.forall₂_iff_get.2 ⟨(length_bucketWidths labels rows).symm, fun j hj hj' => ?_⟩
  have hleast := isLeast_bucketWidths (List.getElem?_eq_getElem hj) (List.getElem?_eq_getElem hj')
  rw [Text.length_padStart]
  exact max_eq_left hleast.1.1

theorem forall₂_counts (hmem : counts ∈ rows) (hlength : counts.length = labels.length) :
    List.Forall₂ (fun (n w : ℕ) => (Text.zeroFill w n).length = w) counts (bucketWidths labels rows) := by
  refine List.forall₂_iff_get.2 ⟨hlength.trans (length_bucketWidths labels rows).symm, ?_⟩
  intro j hj hj'
  have hleast := isLeast_bucketWidths (List.getElem?_eq_getElem (hlength ▸ hj))
    (List.getElem?_eq_getElem hj')
  rw [Text.length_zeroFill]
  exact max_eq_left (hleast.1.2 counts hmem _ (List.getElem?_eq_getElem hj))

/-- A column: it has the least width that fits, and its label and the counts of every row fill it, from
the same place on. -/
structure BucketColumn (labels : List String) (rows : List (List ℕ)) (j : ℕ) (label : String)
    (width : ℕ) : Prop where
  least : IsLeast (fittingWidths label.length rows j) width
  length_label : (Text.padStart width label).length = width
  label : StandsAt (Text.padStart width label) (columnStart (bucketWidths labels rows) j)
    (bucketHeader labels (bucketWidths labels rows))
  length_count : ∀ counts ∈ rows, ∀ n ∈ counts[j]?, (Text.zeroFill width (n : ℕ)).length = width
  count : ∀ counts ∈ rows, ∀ n ∈ counts[j]?,
    StandsAt (Text.zeroFill width (n : ℕ)) (columnStart (bucketWidths labels rows) j)
      (bucketCells (bucketWidths labels rows) counts)

/-- The columns of the header and of all rows: one for each label, all of them aligned, and all lines of
one length. -/
structure BucketsAligned (labels : List String) (rows : List (List ℕ)) : Prop where
  length_widths : (bucketWidths labels rows).length = labels.length
  length_cells : ∀ counts ∈ rows, (bucketCells (bucketWidths labels rows) counts).length =
    (bucketHeader labels (bucketWidths labels rows)).length
  column : ∀ (j : ℕ) (label : String) (width : ℕ), labels[j]? = some label →
    (bucketWidths labels rows)[j]? = some width → BucketColumn labels rows j label width

theorem bucketsAligned (h : ∀ counts ∈ rows, counts.length = labels.length) :
    BucketsAligned labels rows where
  length_widths := length_bucketWidths labels rows
  length_cells := by
    intro counts hcounts
    apply length_intercalate_eq
    rw [map_length_zipWith (forall₂_counts hcounts (h counts hcounts)),
      map_length_zipWith (forall₂_labels labels rows)]
  column := by
    intro j label width hlabel hwidth
    have hleast := isLeast_bucketWidths hlabel hwidth
    refine ⟨hleast, ?_, ?_, ?_, ?_⟩
    · rw [Text.length_padStart]
      exact max_eq_left hleast.1.1
    · apply standsAt_intercalate (map_length_zipWith (forall₂_labels labels rows))
      rw [List.getElem?_zipWith, hlabel, hwidth]
    · intro counts hcounts n hn
      rw [Text.length_zeroFill]
      exact max_eq_left (hleast.1.2 counts hcounts n hn)
    · intro counts hcounts n hn
      apply standsAt_intercalate (map_length_zipWith (forall₂_counts hcounts (h counts hcounts)))
      rw [List.getElem?_zipWith, Option.mem_def.1 hn, hwidth]

/-! ### Reading the columns -/

/-- A bar does not come from joining texts without one. -/
theorem not_mem_intercalate {cells : List String} (h : ∀ cell ∈ cells, '|' ∉ cell.toList) :
    '|' ∉ (" ".intercalate cells).toList := by
  rw [String.toList_intercalate]
  intro hbar
  rcases Text.mem_of_mem_intercalate hbar with hbar | ⟨piece, hpiece, hbar⟩
  · cases hbar
  · obtain ⟨cell, hcell, rfl⟩ := List.mem_map.1 hpiece
    exact h cell hcell hbar

theorem not_mem_bucketCells (widths counts : List ℕ) : '|' ∉ (bucketCells widths counts).toList := by
  apply not_mem_intercalate
  intro cell hcell
  obtain ⟨n, w, _, rfl⟩ := exists_of_mem_zipWith hcell
  exact Text.not_mem_zeroFill rfl w n

theorem not_mem_bucketHeader (h : ∀ label ∈ labels, '|' ∉ label.toList) (widths : List ℕ) :
    '|' ∉ (bucketHeader labels widths).toList := by
  apply not_mem_intercalate
  intro cell hcell
  obtain ⟨l, w, hmem, rfl⟩ := exists_of_mem_zipWith hcell
  exact Text.not_mem_padStart (by decide) (h l (List.of_mem_zip hmem).1) w

/-- **The counts of a row** are read back between single blanks. -/
theorem number?_bucketCells {widths : List ℕ} (hne : counts ≠ []) (h : counts.length = widths.length) :
    (Text.pieces ' ' (bucketCells widths counts).toList).map Text.number? =
      counts.map fun n : ℕ => some (n : ℤ) := by
  have hpieces : Text.pieces ' ' (bucketCells widths counts).toList =
      (List.zipWith (fun (n : ℕ) w => Text.zeroFill w n) counts widths).map String.toList := by
    rw [bucketCells, String.toList_intercalate]
    apply Text.pieces_intercalate
    · rw [Ne, List.map_eq_nil_iff, List.zipWith_eq_nil_iff, not_or]
      exact ⟨hne, fun hw => hne (List.length_eq_zero_iff.1 (by rw [h, hw, List.length_nil]))⟩
    · intro cell hcell
      obtain ⟨filled, hfilled, rfl⟩ := List.mem_map.1 hcell
      obtain ⟨n, w, -, rfl⟩ := exists_of_mem_zipWith hfilled
      exact Text.not_mem_zeroFill rfl w n
  have hread (n w : ℕ) : (Text.number? ∘ String.toList) (Text.zeroFill w n) = some (n : ℤ) := by
    rw [Function.comp_apply, Text.number?_zeroFill]
  rw [hpieces, List.map_map]
  exact map_zipWith_left hread h.le

/-! ### The labels of a histogram -/

namespace Borders

theorem not_mem_spelledLabels (b : Borders) : ∀ label ∈ b.spelledLabels, '|' ∉ label.toList := by
  intro label hlabel
  have hnamed : ∀ label ∈ b.values.map Size.spelledLabel, '|' ∉ label.toList := by
    intro label hlabel
    obtain ⟨size, -, rfl⟩ := List.mem_map.1 hlabel
    exact Size.not_mem_spelledLabel rfl (by decide) rfl size
  rcases List.mem_append.1 hlabel with hlabel | hlabel
  · exact hnamed label hlabel
  · rw [List.mem_singleton.1 hlabel, String.toList_append]
    exact fun hbar => (List.mem_append.1 hbar).elim (by decide) (hnamed _ (List.getLast_mem _))

end Borders

/-- The histograms of any entries are aligned with the labels of their borders. -/
theorem bucketsAligned_map {b : Borders} {α : Type} (sizes : α → Histogram b) (entries : List α) :
    BucketsAligned b.spelledLabels (entries.map fun e => (sizes e).counts) := by
  apply bucketsAligned
  intro counts hcounts
  obtain ⟨e, -, rfl⟩ := List.mem_map.1 hcounts
  exact (sizes e).length_counts.trans b.length_spelledLabels.symm

end UsageLedger
