/-
UsageLedger/Proofs/Report/Conservation.lean

Nothing that is counted gets lost between the parts of a report.  Each node goes
into one entry of each table, so what is shown overall is what the entries of a
table show together; and each file goes into one bucket, so the buckets of every
usage hold its files.

`Report.Conserved.record` carries both from one node to the next.
-/
import UsageLedger.Proofs.Report.Attribution

namespace UsageLedger

open Number

variable {b : Borders}

/-! ### Balanced usages -/

/-- The buckets of a usage hold its files, no more and no fewer. -/
def Usage.Balanced (u : Usage b) : Prop := u.sizes.total = u.files

theorem Usage.balanced_zero (b : Borders) : (Usage.zero b).Balanced := by
  show (List.replicate (b.values.length + 1) 0).sum = 0
  simp

theorem Usage.Balanced.counted {u : Usage b} (h : u.Balanced) (n : Node) : (u.counted n).Balanced := by
  obtain ⟨kind, name, user, group, size, blocks⟩ := n
  cases kind with
  | file =>
    show (u.sizes.add size).total = u.files + 1
    rw [Histogram.total_add, h]
  | directory => exact h
  | symlink => exact h
  | other => exact h

/-! ### The entries of a table together -/

/-- What the entries of a table show for a figure, added up. -/
def Figure.across (f : Figure) (table : Catalog String (Usage b)) : ℤ :=
  (table.values.map (·.figure f)).sum

/-- Counting a node in one entry adds its share to the sum, also if the entry is new. -/
theorem Figure.across_update (f : Figure) (table : Catalog String (Usage b)) (key : String) (n : Node) :
    f.across (table.update key (.zero b) (Usage.counted n)) = f.across table + f.share b n := by
  unfold across
  induction table with
  | nil =>
    show ((Usage.zero b).counted n).figure f + 0 = 0 + f.share b n
    rw [Usage.figure_counted, Usage.figure_zero]
    omega
  | cons e rest ih =>
    obtain ⟨k, u⟩ := e
    by_cases hk : k = key
    · -- The entry is here, and the rest stays as it is.
      have hu : Catalog.update key (.zero b) (Usage.counted n) ((k, u) :: rest) =
          (k, u.counted n) :: rest := by
        simp [Catalog.update, Catalog.put, Catalog.find?, hk]
      rw [hu]
      show (u.counted n).figure f + ((Catalog.values rest).map (·.figure f)).sum =
        u.figure f + ((Catalog.values rest).map (·.figure f)).sum + f.share b n
      rw [Usage.figure_counted]
      omega
    · have hu : Catalog.update key (.zero b) (Usage.counted n) ((k, u) :: rest) =
          (k, u) :: Catalog.update key (.zero b) (Usage.counted n) rest := by
        simp [Catalog.update, Catalog.put, Catalog.find?, hk]
      rw [hu]
      show u.figure f +
          ((Catalog.update key (.zero b) (Usage.counted n) rest).values.map (·.figure f)).sum =
        u.figure f + ((Catalog.values rest).map (·.figure f)).sum + f.share b n
      rw [ih]
      omega

theorem balanced_update {table : Catalog String (Usage b)} (h : ∀ u ∈ table.values, u.Balanced)
    (key : String) (n : Node) :
    ∀ u ∈ (table.update key (.zero b) (Usage.counted n)).values, u.Balanced := by
  intro u hu
  rcases Catalog.mem_values_put hu with rfl | hu
  · -- The changed entry comes from a balanced one, or from nothing.
    cases hf : table.find? key with
    | none => exact (Usage.balanced_zero b).counted n
    | some u =>
      have hu : u ∈ table.values := List.mem_map.2 ⟨(key, u), Catalog.mem_of_find? hf, rfl⟩
      exact (h u hu).counted n
  · exact h u hu

/-! ### Conservation -/

/-- In a report each figure is overall what it is in the groups together and in the users together,
and every usage is balanced. -/
structure Report.Conserved (r : Report b) : Prop where
  groups : ∀ f : Figure, r.overall.figure f = f.across r.groups
  users : ∀ f : Figure, r.overall.figure f = f.across r.users
  overall_balanced : r.overall.Balanced
  groups_balanced : ∀ u ∈ r.groups.values, u.Balanced
  users_balanced : ∀ u ∈ r.users.values, u.Balanced

namespace Report

theorem conserved_start (b : Borders) (path : String) : (start b path).Conserved where
  groups := fun f => Usage.figure_zero b f
  users := fun f => Usage.figure_zero b f
  overall_balanced := Usage.balanced_zero b
  groups_balanced := fun _ hu => absurd hu List.not_mem_nil
  users_balanced := fun _ hu => absurd hu List.not_mem_nil

theorem Conserved.count {r : Report b} (h : r.Conserved) (group user : String) (n : Node) :
    (r.count group user (Usage.counted n)).Conserved where
  groups := by
    intro f
    show (r.overall.counted n).figure f = f.across (r.groups.update group (.zero b) _)
    rw [Usage.figure_counted, Figure.across_update, h.groups]
  users := by
    intro f
    show (r.overall.counted n).figure f = f.across (r.users.update user (.zero b) _)
    rw [Usage.figure_counted, Figure.across_update, h.users]
  overall_balanced := h.overall_balanced.counted n
  groups_balanced := balanced_update h.groups_balanced group n
  users_balanced := balanced_update h.users_balanced user n

theorem Conserved.record {r : Report b} (h : r.Conserved) (n : Node) : (r.record n).Conserved := by
  cases hn : n.kind.isCounted with
  | true =>
    rw [record_of_isCounted hn]
    exact h.count _ _ n
  | false =>
    rw [record_of_not_isCounted hn]
    exact h

theorem Conserved.foldl_record {r : Report b} (h : r.Conserved) (visits : List Visit) :
    (visits.foldl (fun r v => r.record v.node) r).Conserved := by
  induction visits generalizing r with
  | nil => exact h
  | cons v rest ih => exact ih (h.record v.node)

end Report

/-- **Conservation.**  In every state that a collector of a new report can come to, each figure is
overall the sum over the groups and the sum over the users, and the buckets of every usage hold
exactly its files. -/
theorem Collector.after_conserved (b : Borders) (path : String) (progress : Option Progress)
    (verbose : ℤ) (visits : List (Quantity × Visit)) :
    (after verbose ⟨.start b path, progress⟩ visits).report.Conserved := by
  rw [report_after]
  exact (Report.conserved_start b path).foldl_record _

end UsageLedger
