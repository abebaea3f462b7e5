/-
UsageLedger/Proofs/Report/Writing.lean

When a report can be printed to its end, and what the text is then.  Printing breaks
off before the first line with a number of too many digits; a report without such
numbers is printed as its head and its two tables (`Report.print_of_writable`).

The numbers of a report are sums over its visits, and no entry of a table has more
than the whole (`Figure.total_filter_le`).  So a bound on the number of the visits,
on their sizes and on their blocks is enough for all of them
(`Report.writable_ofVisits`).
-/
import Mathlib.Algebra.Order.BigOperators.Group.List
import Mathlib.Algebra.Order.Ring.Int
import Mathlib.Data.List.Dedup
import UsageLedger.Proofs.Report.Attribution
import UsageLedger.Proofs.Size.Labels
import UsageLedger.Proofs.Snapshot.Faults
import UsageLedger.Report.Table

namespace UsageLedger

variable {b : Borders}

namespace Report

variable {o : ReportOptions} {r : Report b}

/-! ### The text of a report -/

/-- The lines above the tables by key: the title and the table for the whole. -/
def head (r : Report b) : List Row := r.titleRows ++ r.overallTable ++ [plainRow ""]

/-- A report as text, all numbers written: its head and, with a blank line between them, the tables
by group and by user. -/
def text (o : ReportOptions) (r : Report b) : String :=
  unlines r.head ++ unlines (keyTable "By group:" (r.groupRows o)) ++ "\n" ++
    unlines (keyTable "By user:" (r.userRows o))

theorem unlines_append (lines lines' : List Row) :
    unlines (lines ++ lines') = unlines lines ++ unlines lines' := by
  unfold unlines
  rw [List.map_append, String.join_append]

/-- What is printed to its end is the text. -/
theorem print_of_fault (h : (r.print o).2 = none) : r.print o = (r.text o, none) := by
  have hrows : unlines (r.rows o) = r.text o := by
    have hblank : unlines [plainRow ""] = "\n" := rfl
    show unlines (r.head ++ keyTable _ _ ++ [plainRow ""] ++ keyTable _ _) = _
    rw [unlines_append, unlines_append, unlines_append, hblank]
    rfl
  unfold print at h ⊢
  dsimp only at h ⊢
  split
  · rw [hrows]
  · rename_i hw
    rw [if_neg hw] at h
    cases h

/-! ### Numbers that can be written -/

/-- Every number of a report has few enough digits to be written, those of the labels of its buckets
included. -/
structure Writable (r : Report b) : Prop where
  labels : (b.labels (some Number.maxDigits)).isOk = true
  overall : ∀ n ∈ [(r.groups.length : ℤ), (r.users.length : ℤ)] ++ r.overall.values, isWritable n = true
  groups : ∀ row ∈ r.groups, ∀ n ∈ row.2.values, isWritable n = true
  users : ∀ row ∈ r.users, ∀ n ∈ row.2.values, isWritable n = true

theorem all_writable_keyTable {title : String} {rows : List (String × Usage b)}
    (h : ∀ row ∈ rows, ∀ n ∈ row.2.values, isWritable n = true) :
    ∀ line ∈ keyTable title rows, line.writable = true := by
  intro line hl
  rcases List.mem_append.1 hl with hl | hl
  · obtain ⟨_, _, rfl⟩ := List.mem_map.1 hl
    rfl
  · obtain ⟨row, hrow, rfl⟩ := List.mem_map.1 hl
    simp only [keyRow, rowOf, List.all_eq_true]
    exact h row hrow

/-- A report without numbers that are too long is printed to its end, whatever rows are shown. -/
theorem print_of_writable (h : r.Writable) (o : ReportOptions) : r.print o = (r.text o, none) := by
  apply print_of_fault
  have hplain (lines : List String) : ∀ line ∈ lines.map plainRow, line.writable = true := by
    intro line hl
    obtain ⟨_, _, rfl⟩ := List.mem_map.1 hl
    rfl
  have hhead : ∀ line ∈ r.head, line.writable = true := by
    intro line hl
    simp only [head, overallTable, List.mem_append, List.mem_singleton] at hl
    rcases hl with (hl | hl | rfl) | rfl
    · obtain ⟨_, _, rfl⟩ := List.mem_map.1 hl
      exact h.labels
    · exact hplain _ line hl
    · simp only [rowOf, List.all_eq_true]
      exact h.overall
    · rfl
  have hgroups : ∀ row ∈ r.groupRows o, ∀ n ∈ row.2.values, isWritable n = true :=
    fun row hrow => h.groups row (List.mem_mergeSort.1 hrow)
  have husers : ∀ row ∈ r.userRows o, ∀ n ∈ row.2.values, isWritable n = true :=
    fun row hrow => h.users row (List.mem_filter.1 (List.mem_mergeSort.1 hrow)).1
  have hall : (r.rows o).all (·.writable) = true := by
    refine List.all_eq_true.2 fun line hl => ?_
    simp only [rows, List.mem_append, List.mem_singleton] at hl
    rcases hl with ((((hl | hl) | rfl) | hl) | rfl) | hl
    · exact hhead line (by simp [head, hl])
    · exact hhead line (by simp [head, hl])
    · rfl
    · exact all_writable_keyTable hgroups line hl
    · rfl
    · exact all_writable_keyTable husers line hl
  unfold print
  simp only [hall, if_true]

end Report

/-! ### Bounds -/

theorem isWritable_of_lt {n : ℤ} (h₀ : 0 ≤ n) (h : n < 10 ^ Number.maxDigits) : isWritable n = true :=
  isWritableIn_of_lt h₀ h

/-- Visits whose number, sizes and blocks make totals that can be written. -/
structure Moderate (visits : List Visit) : Prop where
  length_lt : (visits.length : ℤ) < 10 ^ Number.maxDigits
  size_lt : (visits.map (·.node.size)).sum < 10 ^ Number.maxDigits
  blocks_lt : (visits.map (·.node.blocks)).sum < 10 ^ Number.maxDigits

instance (visits : List Visit) : Decidable (Moderate visits) :=
  decidable_of_iff ((visits.length : ℤ) < 10 ^ Number.maxDigits ∧
      (visits.map (·.node.size)).sum < 10 ^ Number.maxDigits ∧
      (visits.map (·.node.blocks)).sum < 10 ^ Number.maxDigits)
    ⟨fun h => ⟨h.1, h.2.1, h.2.2⟩, fun h => ⟨h.length_lt, h.size_lt, h.blocks_lt⟩⟩

variable {visits : List Visit}

theorem Moderate.perm {visits' : List Visit} (h : Moderate visits) (hv : visits.Perm visits') :
    Moderate visits' where
  length_lt := hv.length_eq ▸ h.length_lt
  size_lt := (hv.map (·.node.size)).sum_eq ▸ h.size_lt
  blocks_lt := (hv.map (·.node.blocks)).sum_eq ▸ h.blocks_lt

namespace Figure

variable {n : Node}

/-- The most that a node can add to a figure. -/
def limit (f : Figure) (n : Node) : ℤ :=
  match f with
  | .blocks => n.blocks
  | .bytes => n.size
  | _ => 1

theorem share_cases (b : Borders) (f : Figure) (n : Node) :
    f.share b n = 0 ∨ f.share b n = f.limit n := by
  unfold share
  split
  · exact .inr rfl
  · exact .inr rfl
  · exact .inr rfl
  · exact .inr rfl
  · exact .inr rfl
  · split
    · exact .inr rfl
    · exact .inl rfl
  · exact .inl rfl

theorem limit_nonneg (f : Figure) (h : n.Sound) : 0 ≤ f.limit n := by
  cases f with
  | blocks => exact h.blocks_nonneg
  | bytes => exact h.size_nonneg
  | _ => exact Int.one_nonneg

theorem share_nonneg (f : Figure) (h : n.Sound) : 0 ≤ f.share b n := by
  rcases f.share_cases b n with hs | hs
  · exact hs.ge
  · exact hs ▸ f.limit_nonneg h

theorem share_le_limit (f : Figure) (h : n.Sound) : f.share b n ≤ f.limit n := by
  rcases f.share_cases b n with hs | hs
  · exact hs ▸ f.limit_nonneg h
  · exact hs.le

theorem total_nonneg (f : Figure) (h : ∀ v ∈ visits, v.node.Sound) : 0 ≤ f.total b visits := by
  refine List.sum_nonneg fun n hn => ?_
  obtain ⟨v, hv, rfl⟩ := List.mem_map.1 hn
  exact f.share_nonneg (h v hv)

/-- No part of some visits has more than all of them. -/
theorem total_filter_le (f : Figure) (h : ∀ v ∈ visits, v.node.Sound) (p : Visit → Bool) :
    f.total b (visits.filter p) ≤ f.total b visits := by
  unfold total
  refine ((List.filter_sublist (p := p)).map _).sum_le_sum fun n hn => ?_
  obtain ⟨v, hv, rfl⟩ := List.mem_map.1 hn
  exact f.share_nonneg (h v hv)

theorem total_le (f : Figure) (hs : ∀ v ∈ visits, v.node.Sound) :
    f.total b visits ≤ (visits.map fun v => f.limit v.node).sum :=
  List.sum_le_sum fun v hv => f.share_le_limit (hs v hv)

theorem total_lt (f : Figure) (hs : ∀ v ∈ visits, v.node.Sound) (h : Moderate visits) :
    f.total b visits < 10 ^ Number.maxDigits := by
  refine lt_of_le_of_lt (f.total_le hs) ?_
  cases f with
  | blocks => exact h.blocks_lt
  | bytes => exact h.size_lt
  | _ => simpa [limit] using h.length_lt

end Figure

/-- Figures that can be written make numbers that can be written. -/
theorem Usage.writable_values {u : Usage b}
    (h : ∀ f, 0 ≤ u.figure f ∧ u.figure f < 10 ^ Number.maxDigits) :
    ∀ n ∈ u.values, isWritable n = true := by
  have figure (f : Figure) : isWritable (u.figure f) = true := isWritable_of_lt (h f).1 (h f).2
  -- Bytes are shown as mebibytes, of which there are no more.
  have hmebibytes : isWritable u.mebibytes = true := by
    obtain ⟨h₀, hlt⟩ := h .bytes
    rw [u.mebibytes_eq]
    refine isWritable_of_lt (Int.ediv_nonneg h₀ (by decide)) (lt_of_le_of_lt ?_ hlt)
    exact Int.ediv_le_self _ h₀
  intro n hn
  simp only [values, List.mem_cons, List.not_mem_nil, or_false] at hn
  obtain rfl | rfl | rfl | rfl | rfl := hn
  · exact figure .directories
  · exact figure .symlinks
  · exact figure .files
  · exact hmebibytes
  · exact figure .blocks

namespace Attributed

variable {table : Catalog String (Usage b)} {key : Visit → String}

/-- There are no more entries than visits. -/
theorem length_le (h : Attributed table key visits) : table.length ≤ visits.length := by
  -- Every key is the one of a visit, and none stands twice.
  have hsub : table.keys ⊆ visits.map key := by
    intro k hk
    obtain ⟨v, hv, rfl⟩ := (h.mem_keys k).1 hk
    exact List.mem_map_of_mem hv
  have hle := (List.subperm_of_subset h.nodup hsub).length_le
  rwa [Catalog.keys, List.length_map, List.length_map] at hle

theorem writable (h : Attributed table key visits) (hs : ∀ v ∈ visits, v.node.Sound)
    (hm : Moderate visits) : ∀ row ∈ table, ∀ n ∈ row.2.values, isWritable n = true := by
  intro row hrow
  refine Usage.writable_values fun f => ?_
  rw [h.figure_eq (Catalog.find?_of_mem h.nodup hrow)]
  constructor
  · exact f.total_nonneg fun v hv => hs v (List.mem_filter.1 hv).1
  · exact lt_of_le_of_lt (f.total_filter_le hs _) (f.total_lt hs hm)

end Attributed

/-- Sound nodes all call back. -/
theorem callbacks_of_sound (hs : ∀ v ∈ visits, v.node.Sound) : callbacks visits = visits :=
  List.filter_eq_self.2 fun v hv => (hs v hv).counted

/-- The report of a moderate number of visits of sound nodes can be written, if the labels can. -/
theorem Report.writable_ofVisits (b : Borders) (label : String)
    (hlabels : (b.labels (some Number.maxDigits)).isOk = true) (hs : ∀ v ∈ visits, v.node.Sound)
    (hm : Moderate visits) : (ofVisits b label visits).Writable := by
  have ha := accounts_ofVisits b label visits
  rw [callbacks_of_sound hs] at ha
  have count (n : ℕ) (hn : n ≤ visits.length) : isWritable (n : ℤ) = true :=
    isWritable_of_lt (Int.natCast_nonneg n) (lt_of_le_of_lt (Int.ofNat_le.2 hn) hm.length_lt)
  refine ⟨hlabels, ?_, ha.groups.writable hs hm, ha.users.writable hs hm⟩
  -- The table for the whole counts the rows of the two others first.
  intro n hn
  simp only [List.cons_append, List.nil_append, List.mem_cons] at hn
  obtain rfl | rfl | hn := hn
  · exact count _ ha.groups.length_le
  · exact count _ ha.users.length_le
  · refine Usage.writable_values (fun f => ?_) n hn
    rw [ha.overall]
    exact ⟨f.total_nonneg hs, f.total_lt hs hm⟩

end UsageLedger
