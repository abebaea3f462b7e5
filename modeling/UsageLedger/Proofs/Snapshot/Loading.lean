/-
UsageLedger/Proofs/Snapshot/Loading.lean

What loading promises of the nodes of a snapshot: a path has one node, the last
one given for it, and every node is a file, a directory or a link, since an entry
of another kind stops the loading.
-/
import UsageLedger.Snapshot.Tree

namespace UsageLedger.Snapshot

/-- Nodes as loading gives them: no path twice, and only kinds that are counted. -/
structure Nodes.Loadable (nodes : Nodes) : Prop where
  nodup : nodes.keys.Nodup
  counted : ∀ {p node}, nodes.find? p = some node → node.kind.isCounted = true

theorem Nodes.loadable_nil : Nodes.Loadable [] where
  nodup := .nil
  counted := by simp [Catalog.find?]

/-- An entry that is read is of a counted kind. -/
theorem Entry.isCounted_of_ofMembers {room : Nat} {place : Place} {members : Catalog String Json}
    {e : Entry} (h : Entry.ofMembers room place members = .ok e) : e.node.kind.isCounted = true := by
  simp only [Entry.ofMembers, bind, Except.bind, pure, Except.pure, throw, throwThe,
    MonadExceptOf.throw] at h
  split at h
  · cases h
  · split at h
    · split at h <;> cases h
    · -- The kind has been checked here; what is checked after it does not matter.
      rename_i hk
      split at h
      · cases h
      · split at h
        · cases h
        · cases h
          simpa using hk

theorem Entry.isCounted_of_parse {room : Nat} {place : Place} {line : String} {e : Entry}
    (h : Entry.parse room place line = .ok e) : e.node.kind.isCounted = true := by
  unfold Entry.parse at h
  split at h
  · cases h
  · exact isCounted_of_ofMembers h
  · cases h

namespace Nodes

variable {nodes : Nodes}

theorem Loadable.put (h : nodes.Loadable) {e : Entry} (he : e.node.kind.isCounted = true) :
    Loadable (Catalog.put e.path e.node nodes) where
  nodup := Catalog.nodup_keys_put e.path e.node h.nodup
  counted := by
    intro p node hp
    rw [Catalog.find?_put] at hp
    split at hp
    · cases hp
      exact he
    · exact h.counted hp

theorem Loadable.addLines {room : Nat} {file : String} {number : Int} {lines : List String}
    {nodes' : Nodes} (h : nodes.Loadable) (ha : addLines room file nodes number lines = .ok nodes') :
    nodes'.Loadable := by
  induction lines generalizing nodes number with
  | nil =>
    cases ha
    exact h
  | cons line rest ih =>
    simp only [Snapshot.addLines] at ha
    split at ha
    · exact ih h ha
    · split at ha
      · rename_i he
        exact ih (h.put (Entry.isCounted_of_parse he)) ha
      · cases ha

theorem loadable_of_readNodes {room : Nat} {file : String} {state : FileState}
    (h : readNodes room file state = .ok nodes) : nodes.Loadable := by
  cases state with
  | bytes content =>
    simp only [readNodes, bind, Except.bind, throw, throwThe, MonadExceptOf.throw, pure,
      Except.pure] at h
    split at h
    · cases h
    · rename_i ha
      split at h
      · cases h
      · cases h
        exact loadable_nil.addLines ha
  | _ => cases h

end Nodes

/-- The nodes of every tree that can be loaded. -/
theorem Tree.loadable_of_load {room : Nat} {verbose : Bool} {file : String} {state : FileState} {t : Tree}
    (h : (load room verbose file state).2 = .ok t) : t.nodes.Loadable := by
  unfold load at h
  split at h
  · cases h
  · rename_i hn
    unfold Tree.ofNodes at h
    dsimp only at h
    split at h
    · cases h
    · cases h
      exact Nodes.loadable_of_readNodes hn

end UsageLedger.Snapshot
