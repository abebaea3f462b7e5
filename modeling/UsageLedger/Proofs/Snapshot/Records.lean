/-
UsageLedger/Proofs/Snapshot/Records.lean

Loading a snapshot goes through.  When every line that is not blank holds a record of
an entry, no path is recorded twice, and what is recorded above an entry is a
directory, a snapshot file loads, and the nodes of its tree are those of the records
in the order of the lines (`exists_load`).
-/
import Mathlib.Data.List.Forall2
import UsageLedger.Proofs.Snapshot.Leaves

namespace UsageLedger.Snapshot

variable {room : ℕ} {file : String} {content : List UInt8} {records : List (Catalog String Json)}
  {entries : List Entry} {nodes : Nodes}

/-! ### Reading lines -/

/-- A file holds some records, one on each line that is not blank. -/
structure Holds (content : List UInt8) (records : List (Catalog String Json)) : Prop where
  decodable : (Text.LineSource.ofBytes content).broken = false
  lines : List.Forall₂ (fun line members => Json.parse? .standard line = some (.object members))
    ((Text.LineSource.ofBytes content).lines.filter fun line => !Text.isBlankText line) records

/-- A record is that of an entry, wherever it stands, however little room there is. -/
def Records (members : Catalog String Json) (e : Entry) : Prop :=
  ∀ room place, Entry.ofMembers room place members = .ok e

/-- The nodes of some entries, by their paths. -/
def nodesOf (entries : List Entry) : Nodes := entries.map fun e => (e.path, e.node)

theorem keys_nodesOf (entries : List Entry) : (nodesOf entries).keys = entries.map Entry.path := by
  simp [nodesOf, Catalog.keys, Function.comp_def]

/-- Lines with records of new paths add their nodes at the end. -/
theorem addLines_eq {lines : List String} {number : ℤ}
    (hl : List.Forall₂ (fun line members => Json.parse? .standard line = some (.object members))
      (lines.filter fun line => !Text.isBlankText line) records)
    (he : List.Forall₂ Records records entries)
    (hd : (nodes.keys ++ entries.map Entry.path).Nodup) :
    addLines room file nodes number lines = .ok (nodes ++ nodesOf entries) := by
  induction lines generalizing nodes number records entries with
  | nil =>
    cases hl
    cases he
    rw [nodesOf, List.map_nil, List.append_nil]
    rfl
  | cons line rest ih =>
    unfold addLines
    by_cases hb : Text.isBlankText line = true
    · rw [if_pos hb]
      rw [List.filter_cons_of_neg (by simp [hb])] at hl
      exact ih hl he hd
    · rw [if_neg hb]
      rw [List.filter_cons_of_pos (by simpa using hb)] at hl
      cases hl with
      | @cons _ members _ records hline hrest =>
        cases he with
        | @cons _ e _ entries hrecord herest =>
          have hparse : Entry.parse room ⟨file, number⟩ line = .ok e := by
            unfold Entry.parse
            rw [hline]
            exact hrecord _ _
          -- The path is new, so its node goes to the end.
          have hnew : nodes.find? e.path = none := by
            rw [List.map_cons] at hd
            have hnot := (List.nodup_append.1 hd).2.2
            rw [← Option.not_isSome_iff_eq_none, Catalog.find?_isSome_iff]
            exact fun hm => hnot _ hm _ List.mem_cons_self rfl
          have hput := Catalog.put_of_find?_eq_none hnew e.node
          have hkeys : Catalog.keys (nodes ++ [(e.path, e.node)]) = nodes.keys ++ [e.path] := by
            simp [Catalog.keys]
          rw [hparse]
          show addLines room file (Catalog.put e.path e.node nodes) (number + 1) rest = _
          rw [hput, ih hrest herest ?_]
          · simp [nodesOf]
          · rw [hkeys]
            simpa using hd

/-! ### Nothing below a file -/

/-- What is recorded above another recorded path is a directory. -/
def Nodes.Rooted (nodes : Nodes) : Prop :=
  ∀ p node, nodes.find? p = some node → (∃ q ∈ nodes.keys, q.Within p ∧ q ≠ p) →
    node.kind.isDirectory = true

theorem Nodes.Rooted.exists_tree (h : nodes.Rooted) :
    ∃ t, Tree.ofNodes nodes = .ok t ∧ t.nodes = nodes := by
  obtain ⟨_, ht⟩ | ⟨c, p, hfound, _⟩ := Tree.ofNodes_cases nodes
  · exact ht
  · -- What the check names would be a directory.
    have hmisplaced := Misplaced.of_misplaced? hfound
    obtain ⟨node, hnode, hleaf⟩ := hmisplaced.leaf
    obtain ⟨q, hq, hqp, hne, _⟩ := hmisplaced.exists_below
    rw [h p node hnode ⟨q, hq, hqp, hne⟩] at hleaf
    cases hleaf

/-! ### Loading -/

/-- **A snapshot of records loads.** -/
theorem exists_load (room : ℕ) (file : String) (verbose : Bool) (hh : Holds content records)
    (he : List.Forall₂ Records records entries) (hd : (entries.map Entry.path).Nodup) (hr : (nodesOf entries).Rooted) :
    ∃ t, (load room verbose file (.bytes content)).2 = .ok t ∧ t.nodes = nodesOf entries := by
  have hlines : addLines room file [] 1 (Text.LineSource.ofBytes content).lines = .ok (nodesOf entries) := by
    rw [addLines_eq hh.lines he (by simpa [Catalog.keys] using hd)]
    rfl
  have hread : readNodes room file (.bytes content) = .ok (nodesOf entries) := by
    simp [readNodes, hlines, hh.decodable, bind, Except.bind, pure, Except.pure]
  obtain ⟨t, ht, hnodes⟩ := hr.exists_tree
  refine ⟨t, ?_, hnodes⟩
  unfold load
  rw [hread]
  exact ht

end UsageLedger.Snapshot
