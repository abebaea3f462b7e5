/-
UsageLedger/Proofs/Snapshot/Leaves.lean

Nothing lies below a file or a link.  The check for it looks only at the directories of
the index, each with its own node, but the index has every path that something recorded
lies below, at whatever distance (`Index.has_ofPaths_iff`).  So a recorded path below a
file or a link is always found (`exists_misplaced?`), and what is found is one
(`Misplaced.of_misplaced?`).

Which paths are recorded, and as what, does not depend on the order in which they came,
and so neither does the refusal (`ofNodes_refuses_iff`).
-/
import UsageLedger.Proofs.Catalog
import UsageLedger.Proofs.Snapshot.Index
import UsageLedger.Proofs.Snapshot.Loading

namespace UsageLedger

/-- Of the counted kinds only files and links are not directories. -/
theorem NodeKind.leaf_of_isCounted {k : NodeKind} (hc : k.isCounted = true)
    (hd : k.isDirectory = false) : k = .file ∨ k = .symlink := by
  cases k with
  | file => exact .inl rfl
  | symlink => exact .inr rfl
  | directory => cases hd
  | other => cases hc

namespace Snapshot

variable {nodes nodes' : Nodes} {p q c : Path}

/-- A path is recorded below another one, at whatever distance, and that one is recorded as a file or
a link. -/
structure Nodes.BelowLeaf (nodes : Nodes) (q p : Path) : Prop where
  recorded : q ∈ nodes.keys
  within : q.Within p
  ne : q ≠ p
  leaf : ∃ node, nodes.find? p = some node ∧ (node.kind = .file ∨ node.kind = .symlink)

/-! ### What the check finds -/

/-- What the check names: a file or a link, and a path that it would hold, on the way to a recorded
one. -/
structure Misplaced (nodes : Nodes) (c p : Path) : Prop where
  parent_eq : c.parent = p
  ne_root : c ≠ .root
  known : Known nodes.keys c
  leaf : ∃ node, nodes.find? p = some node ∧ node.kind.isDirectory = false

theorem Misplaced.of_misplaced? (h : misplaced? nodes (Index.ofPaths nodes.keys) = some (c, p)) :
    Misplaced nodes c p := by
  obtain ⟨⟨directory, held⟩, hm, hfound⟩ := List.exists_of_findSome?_eq_some h
  have hfind := Catalog.find?_of_mem (Index.nodup_keys_ofPaths nodes.keys) hm
  dsimp only at hfound
  split at hfound
  · rename_i node hnode
    split at hfound
    · cases hfound
    · rename_i hleaf
      obtain ⟨first, hfirst, heq⟩ := Option.map_eq_some_iff.1 hfound
      cases heq
      have hheld : c ∈ (Index.ofPaths nodes.keys).childrenOf p := by
        rw [Index.childrenOf, hfind]
        exact List.mem_of_mem_head? hfirst
      obtain ⟨hroot, hparent, hknown⟩ := Index.mem_childrenOf_ofPaths.1 hheld
      exact ⟨hparent, hroot, hknown, node, hnode, by simpa using hleaf⟩
  · cases hfound

/-- Something recorded lies below what the check names. -/
theorem Misplaced.exists_below (h : Misplaced nodes c p) :
    ∃ q ∈ nodes.keys, q.Within p ∧ q ≠ p ∧ q.Within c := by
  obtain ⟨q, hq, hqc⟩ := h.known
  have hlonger := Path.length_parent_add_one h.ne_root
  refine ⟨q, hq, ?_, ?_, hqc⟩
  · exact h.parent_eq ▸ hqc.trans (Path.within_parent c)
  · rintro rfl
    have hle := hqc.length_le
    rw [h.parent_eq] at hlonger
    omega

theorem Misplaced.exists_belowLeaf (h : Misplaced nodes c p) (hn : nodes.Loadable) :
    ∃ q, nodes.BelowLeaf q p ∧ q.Within c := by
  obtain ⟨node, hnode, hleaf⟩ := h.leaf
  obtain ⟨q, hq, hqp, hne, hqc⟩ := h.exists_below
  exact ⟨q, ⟨hq, hqp, hne, node, hnode, NodeKind.leaf_of_isCounted (hn.counted hnode) hleaf⟩, hqc⟩

/-- Below a file or a link the check finds something, however far the recorded path is. -/
theorem exists_misplaced? (h : nodes.BelowLeaf q p) :
    ∃ found, misplaced? nodes (Index.ofPaths nodes.keys) = some found := by
  obtain ⟨node, hnode, hleaf⟩ := h.leaf
  have hdirectory : node.kind.isDirectory = false := by
    rcases hleaf with hkind | hkind <;> rw [hkind] <;> rfl
  -- The child of `p` on the way to `q` is known, so `p` is in the index.
  obtain ⟨child, hroot, hparent, hqc⟩ := Path.exists_child h.within h.ne
  have hhas : (Index.ofPaths nodes.keys).has p = true :=
    Index.has_ofPaths_iff.2 ⟨child, hroot, hparent, q, h.recorded, hqc⟩
  obtain ⟨held, hheld⟩ := Option.isSome_iff_exists.1 hhas
  obtain ⟨first, rest, rfl⟩ :=
    List.exists_cons_of_ne_nil ((Index.sound_ofPaths nodes.keys).ne_nil hheld)
  rw [← Option.ne_none_iff_exists']
  intro hnone
  have hp := List.findSome?_eq_none_iff.1 hnone _ (Catalog.mem_of_find? hheld)
  simp [hnode, hdirectory] at hp

/-! ### Refusal -/

/-- A tree is made of nodes, unless the check finds something. -/
theorem Tree.ofNodes_cases (nodes : Nodes) :
    (misplaced? nodes (Index.ofPaths nodes.keys) = none ∧
        ∃ t, Tree.ofNodes nodes = .ok t ∧ t.nodes = nodes) ∨
      ∃ c p, misplaced? nodes (Index.ofPaths nodes.keys) = some (c, p) ∧
        Tree.ofNodes nodes = .error (.snapshot (.belowLeaf c.text p.text)) := by
  unfold Tree.ofNodes
  dsimp only
  split
  · rename_i c p hfound
    exact .inr ⟨c, p, hfound, rfl⟩
  · rename_i hnone
    exact .inl ⟨hnone, _, rfl, rfl⟩

/-- Nodes of which no tree is made. -/
def Nodes.Refused (nodes : Nodes) : Prop := ∃ why, Tree.ofNodes nodes = .error (.snapshot why)

theorem Nodes.refused_iff (h : nodes.Loadable) : nodes.Refused ↔ ∃ q p, nodes.BelowLeaf q p := by
  constructor
  · rintro ⟨why, hwhy⟩
    obtain ⟨_, t, ht, _⟩ | ⟨c, p, hfound, _⟩ := Tree.ofNodes_cases nodes
    · rw [ht] at hwhy
      cases hwhy
    · obtain ⟨q, hq, _⟩ := (Misplaced.of_misplaced? hfound).exists_belowLeaf h
      exact ⟨q, p, hq⟩
  · rintro ⟨q, p, hq⟩
    obtain ⟨found, hfound⟩ := exists_misplaced? hq
    obtain ⟨hnone, _⟩ | ⟨c, p', _, herror⟩ := Tree.ofNodes_cases nodes
    · rw [hnone] at hfound
      cases hfound
    · exact ⟨_, herror⟩

namespace Nodes

theorem Loadable.perm (h : nodes.Loadable) (hp : nodes.Perm nodes') : nodes'.Loadable where
  nodup := (hp.map _).nodup_iff.1 h.nodup
  counted := by
    intro p node hnode
    rw [← Catalog.find?_eq_of_perm h.nodup hp] at hnode
    exact h.counted hnode

theorem BelowLeaf.perm (hb : nodes.BelowLeaf q p) (h : nodes.Loadable) (hp : nodes.Perm nodes') :
    nodes'.BelowLeaf q p where
  recorded := (hp.map _).mem_iff.1 hb.recorded
  within := hb.within
  ne := hb.ne
  leaf := by
    rw [← Catalog.find?_eq_of_perm h.nodup hp]
    exact hb.leaf

theorem refused_of_perm (h : nodes.Loadable) (hp : nodes.Perm nodes') :
    nodes'.Refused ↔ nodes.Refused := by
  rw [refused_iff h, refused_iff (h.perm hp)]
  constructor
  · rintro ⟨q, p, hb⟩
    exact ⟨q, p, hb.perm (h.perm hp) hp.symm⟩
  · rintro ⟨q, p, hb⟩
    exact ⟨q, p, hb.perm h hp⟩

/-- **Entries below a file or a link are refused, and nothing else is.**  No tree is made of nodes if
and only if a recorded path lies below one that is recorded as a file or a link; the fault then names
such a file or link, and what it would hold on the way to a recorded path.  Of all other nodes a tree
is made, and the order in which the nodes came does not matter. -/
theorem ofNodes_refuses_iff (h : nodes.Loadable) :
    (nodes.Refused ↔ ∃ q p, nodes.BelowLeaf q p) ∧
      (∀ f, Tree.ofNodes nodes = .error f → ∃ q p c, nodes.BelowLeaf q p ∧ c.parent = p ∧
        q.Within c ∧ f = .snapshot (.belowLeaf c.text p.text)) ∧
      (¬ nodes.Refused → ∃ t, Tree.ofNodes nodes = .ok t ∧ t.nodes = nodes) ∧
      ∀ nodes' : Nodes, nodes.Perm nodes' → (nodes'.Refused ↔ nodes.Refused) := by
  refine ⟨refused_iff h, fun f hf => ?_, fun hr => ?_, fun nodes' hp => refused_of_perm h hp⟩
  · obtain ⟨_, t, ht, _⟩ | ⟨c, p, hfound, herror⟩ := Tree.ofNodes_cases nodes
    · rw [ht] at hf
      cases hf
    · have hmisplaced := Misplaced.of_misplaced? hfound
      obtain ⟨q, hq, hqc⟩ := hmisplaced.exists_belowLeaf h
      rw [herror] at hf
      cases hf
      exact ⟨q, p, c, hq, hmisplaced.parent_eq, hqc, rfl⟩
  · obtain ⟨_, ht⟩ | ⟨c, p, _, herror⟩ := Tree.ofNodes_cases nodes
    · exact ht
    · exact absurd ⟨_, herror⟩ hr

/-- A file that is recorded two levels below a link, with nothing recorded between them. -/
def belowLink : Nodes :=
  [ (.ofText "/l/d/x", ⟨.file, .text "x", .null, .null, 7, 1⟩),
    (.ofText "/l", ⟨.symlink, .text "l", .null, .null, 0, 0⟩) ]

theorem ofNodes_refuses_iff_belowLink :
    belowLink.Loadable ∧ belowLink.Refused ∧ belowLink.Perm belowLink.reverse ∧
      Refused belowLink.reverse := by
  have hl : belowLink.Loadable := by
    refine ⟨by decide +kernel, fun {p node} hp => ?_⟩
    have hc : ∀ e ∈ belowLink, e.2.kind.isCounted = true := by simp [belowLink, NodeKind.isCounted]
    exact hc _ (Catalog.mem_of_find? hp)
  have hb : belowLink.BelowLeaf (.ofText "/l/d/x") (.ofText "/l") := by
    refine ⟨by decide +kernel, by decide +kernel, by decide +kernel, ?_⟩
    exact ⟨⟨.symlink, .text "l", .null, .null, 0, 0⟩, rfl, .inr rfl⟩
  obtain ⟨hiff, _, _, horder⟩ := ofNodes_refuses_iff hl
  have hr := hiff.2 ⟨_, _, hb⟩
  have hp : belowLink.Perm belowLink.reverse := (List.reverse_perm belowLink).symm
  exact ⟨hl, hr, hp, (horder _ hp).2 hr⟩

end Nodes

end Snapshot

end UsageLedger
