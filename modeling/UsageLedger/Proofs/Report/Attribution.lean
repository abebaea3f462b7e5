/-
UsageLedger/Proofs/Report/Attribution.lean

Every figure of a report is the sum of what exactly the right nodes add to it:
overall of all that is counted, in an entry of a table of what is counted under
its key.  `Attributed` says so of one table, whatever the order of its keys;
`Attributed.update` carries it from one node to the next, for the node's own key
and for every other one.  Two tables of the same nodes have the same entries
(`Attributed.perm`), in whatever order the nodes came.

`Report.Accounts` puts both tables and the total together; it holds of a collector
after any visits.
-/
import Mathlib.Data.List.Induction
import Mathlib.Data.List.Nodup
import UsageLedger.Proofs.Catalog
import UsageLedger.Proofs.Report.Figure
import UsageLedger.Report.Collector

namespace UsageLedger

open Number

variable {b : Borders}

/-! ### Sums of shares -/

@[simp] theorem Figure.total_nil (b : Borders) (f : Figure) : f.total b [] = 0 := rfl

theorem Figure.total_append (f : Figure) (visits visits' : List Visit) :
    f.total b (visits ++ visits') = f.total b visits + f.total b visits' := by
  simp [total]

theorem Figure.total_singleton (f : Figure) (v : Visit) : f.total b [v] = f.share b v.node := by
  simp [total]

/-! ### One table -/

/-- A table has an entry for exactly the keys of some visits, and the figures of an entry are the
sums over the visits with its key. -/
structure Attributed (table : Catalog String (Usage b)) (key : Visit → String)
    (visits : List Visit) : Prop where
  nodup : table.keys.Nodup
  mem_keys : ∀ k, k ∈ table.keys ↔ ∃ v ∈ visits, key v = k
  figure_eq : ∀ {k u}, table.find? k = some u →
    ∀ f : Figure, u.figure f = f.total b (visits.filter fun v => key v = k)

namespace Attributed

variable {table : Catalog String (Usage b)} {key : Visit → String} {visits : List Visit}

theorem nil (key : Visit → String) : Attributed (b := b) [] key [] where
  nodup := .nil
  mem_keys := by simp [Catalog.keys]
  figure_eq := by simp [Catalog.find?]

/-- What is found under a key, or nothing counted, is the sum over the visits with the key. -/
theorem figure_getD (h : Attributed table key visits) (k : String) (f : Figure) :
    ((table.find? k).getD (.zero b)).figure f = f.total b (visits.filter fun v => key v = k) := by
  cases hk : table.find? k with
  | some u => exact h.figure_eq hk f
  | none =>
    -- No entry, so no visit with the key.
    have hn : ¬ ∃ v ∈ visits, key v = k := by
      rw [← h.mem_keys, ← Catalog.find?_isSome_iff, hk]
      simp
    have hf : visits.filter (fun v => key v = k) = [] :=
      List.filter_eq_nil_iff.2 fun v hv hkv => hn ⟨v, hv, of_decide_eq_true hkv⟩
    rw [hf, Figure.total_nil, Option.getD_none, Usage.figure_zero]

/-- Counting one more visit under its key. -/
theorem update (h : Attributed table key visits) (v : Visit) :
    Attributed (table.update (key v) (.zero b) (Usage.counted v.node)) key (visits ++ [v]) where
  nodup := Catalog.nodup_keys_put _ _ h.nodup
  mem_keys := by
    intro k
    have hk := h.mem_keys k
    rw [Catalog.keys_update]
    simp only [List.mem_append, List.mem_singleton, or_and_right, exists_or, exists_eq_left, ← hk]
    split
    · rename_i hv
      exact ⟨.inl, fun h => h.elim id fun he => he ▸ hv⟩
    · rw [List.mem_append, List.mem_singleton, eq_comm (a := k)]
  figure_eq := by
    intro k u hu f
    rw [Catalog.find?_update] at hu
    rw [List.filter_append, Figure.total_append]
    split at hu
    · -- The entry of the visit's own key, which may be new.
      rename_i hk
      subst hk
      cases hu
      rw [Usage.figure_counted, h.figure_getD]
      simp [Figure.total_singleton]
    · -- Any other entry: nothing is added, and the filter leaves the visit out.
      rename_i hk
      simp [h.figure_eq hu, hk]

/-- Two tables of the same visits have the same entries. -/
theorem find?_eq {table' : Catalog String (Usage b)} {visits' : List Visit}
    (h : Attributed table key visits) (h' : Attributed table' key visits')
    (hv : visits.Perm visits') (k : String) : table.find? k = table'.find? k := by
  have hkeys : k ∈ table.keys ↔ k ∈ table'.keys := by
    simp only [h.mem_keys, h'.mem_keys, hv.mem_iff]
  rw [← Catalog.find?_isSome_iff, ← Catalog.find?_isSome_iff] at hkeys
  cases hu : table.find? k with
  | none =>
    rw [hu] at hkeys
    exact (Option.not_isSome_iff_eq_none.1 fun hs => by simpa using hkeys.2 hs).symm
  | some u =>
    obtain ⟨u', hu'⟩ := Option.isSome_iff_exists.1 (hkeys.1 (by simp [hu]))
    have huu : u = u' := Usage.ext_figure fun f => by
      rw [h.figure_eq hu, h'.figure_eq hu']
      exact ((hv.filter _).map _).sum_eq
    rw [hu', huu]

theorem perm {table' : Catalog String (Usage b)} {visits' : List Visit}
    (h : Attributed table key visits) (h' : Attributed table' key visits')
    (hv : visits.Perm visits') : table.Perm table' := by
  have hn : table.Nodup := List.Nodup.of_map _ h.nodup
  have hn' : table'.Nodup := List.Nodup.of_map _ h'.nodup
  refine (List.perm_ext_iff_of_nodup hn hn').2 fun e => ?_
  rw [← Catalog.find?_eq_some_iff h.nodup, ← Catalog.find?_eq_some_iff h'.nodup, h.find?_eq h' hv]

end Attributed

/-! ### First appearance -/

/-- A table of some visits with the keys in the order of their first appearance. -/
structure AttributedInOrder (table : Catalog String (Usage b)) (key : Visit → String)
    (visits : List Visit) : Prop extends Attributed table key visits where
  keys_eq : table.keys = (visits.map key).eraseDups

theorem AttributedInOrder.update {table : Catalog String (Usage b)} {key : Visit → String}
    {visits : List Visit} (h : AttributedInOrder table key visits) (v : Visit) :
    AttributedInOrder (table.update (key v) (.zero b) (Usage.counted v.node)) key
      (visits ++ [v]) where
  toAttributed := h.toAttributed.update v
  keys_eq := by
    rw [Catalog.keys_update, List.map_append, List.map_singleton, eraseDups_append_singleton,
      h.keys_eq]
    simp only [List.mem_eraseDups]

/-! ### Reports -/

/-- A report accounts for some visits: overall for all of them, in each table for each key's own. -/
structure Report.Accounts (r : Report b) (visits : List Visit) : Prop where
  overall : ∀ f : Figure, r.overall.figure f = f.total b visits
  groups : AttributedInOrder r.groups Visit.groupKey visits
  users : AttributedInOrder r.users Visit.userKey visits

namespace Report

theorem record_of_isCounted {n : Node} (h : n.kind.isCounted = true) (r : Report b) :
    r.record n = r.count (ownerKey n.group) (ownerKey n.user) (Usage.counted n) := by
  obtain ⟨kind, name, user, group, size, blocks⟩ := n
  cases kind with
  | other => cases h
  | _ => rfl

theorem record_of_not_isCounted {n : Node} (h : n.kind.isCounted = false) (r : Report b) :
    r.record n = r := by
  obtain ⟨kind, name, user, group, size, blocks⟩ := n
  cases kind with
  | other => rfl
  | _ => cases h

/-- One more visit: it is accounted for if it calls back, and changes nothing otherwise. -/
theorem Accounts.record {r : Report b} {visits : List Visit} (h : r.Accounts (callbacks visits))
    (v : Visit) : (r.record v.node).Accounts (callbacks (visits ++ [v])) := by
  cases hv : v.node.kind.isCounted with
  | false =>
    have hc : callbacks (visits ++ [v]) = callbacks visits := by simp [callbacks, hv]
    rw [record_of_not_isCounted hv, hc]
    exact h
  | true =>
    have hc : callbacks (visits ++ [v]) = callbacks visits ++ [v] := by simp [callbacks, hv]
    rw [record_of_isCounted hv, hc]
    refine ⟨fun f => ?_, h.groups.update v, h.users.update v⟩
    show ((Usage.counted v.node) r.overall).figure f = _
    rw [Usage.figure_counted, h.overall, Figure.total_append, Figure.total_singleton]

theorem accounts_start (b : Borders) (path : String) : (start b path).Accounts [] where
  overall := fun f => Usage.figure_zero b f
  groups := ⟨.nil _, rfl⟩
  users := ⟨.nil _, rfl⟩

theorem accounts_ofVisits (b : Borders) (path : String) (visits : List Visit) :
    (ofVisits b path visits).Accounts (callbacks visits) := by
  induction visits using List.reverseRecOn with
  | nil => exact accounts_start b path
  | append_singleton visits v ih =>
    have hs : ofVisits b path (visits ++ [v]) = (ofVisits b path visits).record v.node := by
      simp [ofVisits]
    rw [hs]
    exact ih.record v

end Report

/-! ### Collectors -/

namespace Collector

/-- The collector after some visits, each with the clock at its time.  What the collector says is
left out, and a fault of its progress does not keep later visits away. -/
def after (verbose : ℤ) (c : Collector b) (visits : List (Quantity × Visit)) : Collector b :=
  visits.foldl (fun c v => (c.record verbose v.1 v.2).1) c

/-- Progress and remarks do not touch the report. -/
theorem report_record (verbose : ℤ) (now : Quantity) (c : Collector b) (v : Visit) :
    (c.record verbose now v).1.report = c.report.record v.node := by
  unfold record
  cases c.progress with
  | none => rfl
  | some p =>
    dsimp only
    split <;> rfl

theorem report_after (verbose : ℤ) (c : Collector b) (visits : List (Quantity × Visit)) :
    (c.after verbose visits).report =
      (visits.map (·.2)).foldl (fun r v => r.record v.node) c.report := by
  induction visits generalizing c with
  | nil => rfl
  | cons v rest ih =>
    show ((c.record verbose v.1 v.2).1.after verbose rest).report = _
    rw [ih, report_record]
    rfl

end Collector

end UsageLedger
