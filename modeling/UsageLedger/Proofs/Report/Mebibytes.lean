/-
UsageLedger/Proofs/Report/Mebibytes.lean

Adding up the column of sizes.  Each row shows whole mebibytes, rounded down, so the rows
of a table together show no more than the whole; and as each of them loses less than one,
they show less by fewer mebibytes than there are rows (`Usage.addsUp`).  That the bytes
themselves add up is conservation, and a report of one callback has a row to show
(`Collector.mebibytes_add_up`).
-/
import Mathlib.Data.Rat.Floor
import UsageLedger.Proofs.Report.Conservation
import UsageLedger.Proofs.Report.Ties

namespace UsageLedger

open Number

variable {b : Borders}

/-! ### Quotients rounded down -/

section

variable {d : ℤ}

/-- Quotients rounded down do not exceed what they are taken of. -/
theorem sum_ediv_mul_le (hd : 0 < d) (sizes : List ℤ) : (sizes.map (· / d)).sum * d ≤ sizes.sum := by
  induction sizes with
  | nil => simp
  | cons size sizes ih =>
    have hsize : size / d * d ≤ size := Int.ediv_mul_le size hd.ne'
    rw [List.map_cons, List.sum_cons, List.sum_cons, add_mul]
    exact add_le_add hsize ih

/-- One more for each of them exceeds it by one for each at least. -/
theorem sum_add_length_le (hd : 0 < d) (sizes : List ℤ) :
    sizes.sum + sizes.length ≤ ((sizes.map (· / d)).sum + sizes.length) * d := by
  induction sizes with
  | nil => simp
  | cons size sizes ih =>
    have hsize : size + 1 ≤ (size / d + 1) * d := Int.lt_ediv_add_one_mul_self size hd
    calc (size :: sizes).sum + ((size :: sizes).length : ℤ)
        = size + 1 + (sizes.sum + sizes.length) := by
          rw [List.sum_cons, List.length_cons, Nat.cast_succ]
          omega
      _ ≤ (size / d + 1) * d + ((sizes.map (· / d)).sum + sizes.length) * d := add_le_add hsize ih
      _ = (((size :: sizes).map (· / d)).sum + ((size :: sizes).length : ℤ)) * d := by
          rw [List.map_cons, List.sum_cons, List.length_cons, Nat.cast_succ]
          ring

end

/-! ### Mebibytes -/

namespace Usage

/-- Mebibytes are what the bytes make of 1048576 each, rounded down. -/
theorem mebibytes_eq_floor (u : Usage b) : u.mebibytes = ⌊(u.bytes : ℚ) / 1048576⌋ :=
  u.mebibytes_eq.trans (Rat.floor_intCast_div_natCast u.bytes 1048576).symm

/-- The mebibytes of some rows add up to those of a usage, but for fewer of them than there are rows. -/
structure AddsUp (u : Usage b) (rows : List (String × Usage b)) : Prop where
  sum_le : (rows.map (·.2.mebibytes)).sum ≤ u.mebibytes
  le_sum : u.mebibytes ≤ (rows.map (·.2.mebibytes)).sum + rows.length - 1

/-- What adds up in bytes adds up in mebibytes. -/
theorem addsUp {u : Usage b} {rows : List (String × Usage b)} (hne : rows ≠ [])
    (h : u.bytes = (rows.map (·.2.bytes)).sum) : u.AddsUp rows := by
  have hd : (0 : ℤ) < 1048576 := by decide
  have hshown : (rows.map (·.2.mebibytes)) = (rows.map (·.2.bytes)).map (· / 1048576) := by
    rw [List.map_map]
    exact List.map_congr_left fun row _ => row.2.mebibytes_eq
  have hlower := sum_ediv_mul_le hd (rows.map (·.2.bytes))
  have hupper := sum_add_length_le hd (rows.map (·.2.bytes))
  have hlength : 0 < rows.length := List.length_pos_iff.2 hne
  rw [← hshown, ← h] at hlower hupper
  rw [List.length_map] at hupper
  constructor
  · rw [u.mebibytes_eq]
    exact (Int.le_ediv_iff_mul_le hd).2 hlower
  -- With at least one row the bytes stay below one more mebibyte for each row.
  · rw [u.mebibytes_eq]
    apply Int.le_sub_one_of_lt
    apply (Int.ediv_lt_iff_lt_mul hd).2
    omega

end Usage

/-! ### Tables -/

/-- The rows of a table that holds the bytes of a usage add up to it, however they are sorted. -/
theorem Usage.addsUp_sort {u : Usage b} {table : Catalog String (Usage b)} (hne : table ≠ [])
    (h : u.bytes = Figure.bytes.across table) (m : SortMetric) : u.AddsUp (m.sort table) := by
  have hperm := m.sort_perm table
  apply addsUp
  · intro hnil
    rw [hnil] at hperm
    exact hne hperm.nil_eq.symm
  · have hbytes := hperm.map (·.2.bytes)
    rw [h, hbytes.sum_eq, Figure.across, Catalog.values, List.map_map]
    rfl

theorem Attributed.ne_nil {table : Catalog String (Usage b)} {key : Visit → String} {visits : List Visit}
    (h : Attributed table key visits) (hne : visits ≠ []) : table ≠ [] := by
  obtain ⟨v, hv⟩ := List.exists_mem_of_ne_nil visits hne
  have hkey : key v ∈ table.keys := (h.mem_keys (key v)).2 ⟨v, hv, rfl⟩
  rintro rfl
  exact List.not_mem_nil hkey

/-- **The column of sizes adds up.**  After any visits of which one calls back, the mebibytes in the table of
all groups, and those in the table of all users, add up to the mebibytes overall, but for fewer of them than
the table has rows. -/
theorem Collector.mebibytes_add_up (b : Borders) (path : String) (progress : Option Progress) (verbose : ℤ)
    {visits : List (Quantity × Visit)} (h : callbacks (visits.map (·.2)) ≠ []) :
    ∃ r : Report b, r = (after verbose ⟨.start b path, progress⟩ visits).report ∧
      (∀ o, r.overall.AddsUp (r.groupRows o)) ∧
      (∀ m, r.overall.AddsUp (r.userRows ⟨m, .all⟩)) ∧
      ∀ u : Usage b, u.mebibytes = ⌊(u.bytes : ℚ) / 1048576⌋ := by
  have hreport := report_after verbose ⟨.start b path, progress⟩ visits
  have haccounts := Report.accounts_ofVisits b path (visits.map (·.2))
  have hconserved := (Report.conserved_start b path).foldl_record (visits.map (·.2))
  rw [Report.ofVisits, ← hreport] at haccounts
  rw [← hreport] at hconserved
  have hgroups := haccounts.groups.toAttributed.ne_nil h
  have husers := haccounts.users.toAttributed.ne_nil h
  refine ⟨_, rfl, ?_, ?_, Usage.mebibytes_eq_floor⟩
  · exact fun o => Usage.addsUp_sort hgroups (hconserved.groups .bytes) o.metric
  · intro m
    rw [Report.userRows_all]
    exact Usage.addsUp_sort husers (hconserved.users .bytes) m

/-- The sizes of two files of two owners add up. -/
theorem Collector.mebibytes_add_up_twoFiles :
    callbacks (twoFiles.map (·.2)) ≠ [] ∧ ∃ r : Report .standard,
      r = (after 0 ⟨.start .standard "/", none⟩ twoFiles).report ∧
        r.overall.AddsUp (r.groupRows ⟨.fileSize, .all⟩) ∧
        r.overall.AddsUp (r.userRows ⟨.fileSize, .all⟩) := by
  have hne : callbacks (twoFiles.map (·.2)) ≠ [] := List.cons_ne_nil _ _
  obtain ⟨r, hr, hgroups, husers, -⟩ := mebibytes_add_up .standard "/" none 0 hne
  exact ⟨hne, r, hr, hgroups _, husers _⟩

end UsageLedger
