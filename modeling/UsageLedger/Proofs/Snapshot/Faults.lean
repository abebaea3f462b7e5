/-
UsageLedger/Proofs/Snapshot/Faults.lean

How loading a snapshot ends.  Whatever stands in the place of the file, loading gives
a tree of sound nodes or a fault of the snapshot.  There are two other faults: a number
is out of range, which takes a record of a file whose size or blocks are an infinite
number, or something is too deep, which takes a record with a type that is none and
more levels than there is room to show (`load_cases`).

`Ends` says so of a computation, given the records that it has read.  It holds of one
entry (`Entry.ends_ofMembers`), of the lines one after another (`ends_addLines`), and
of the check for entries below a file or a link, which reads no record.
-/
import UsageLedger.Snapshot.Tree

namespace UsageLedger

/-- A node that counts as a snapshot promises: it is of a counted kind, size and blocks are not
negative, and only a file has any. -/
structure Node.Sound (n : Node) : Prop where
  counted : n.kind.isCounted = true
  size_nonneg : 0 ≤ n.size
  blocks_nonneg : 0 ≤ n.blocks
  of_not_file : n.kind.isFile = false → n.size = 0 ∧ n.blocks = 0

/-- Whether an escape in a text is half of a surrogate pair that stands alone.  It is no character, so
the replacement character stands for it, and texts that differ in such halves become one. -/
def Json.hasLoneHalf : List Char → Bool
  | '\\' :: 'u' :: a :: b :: c :: d :: '\\' :: 'u' :: e :: f :: g :: h :: rest =>
    let first := (Text.ofHex? [a, b, c, d]).getD 0
    let second := (Text.ofHex? [e, f, g, h]).getD 0
    if isHighSurrogate first && isLowSurrogate second then hasLoneHalf rest
    else
      isHighSurrogate first || isLowSurrogate first ||
        hasLoneHalf ('\\' :: 'u' :: e :: f :: g :: h :: rest)
  | '\\' :: 'u' :: a :: b :: c :: d :: rest =>
    let n := (Text.ofHex? [a, b, c, d]).getD 0
    isHighSurrogate n || isLowSurrogate n || hasLoneHalf rest
  | '\\' :: _ :: rest => hasLoneHalf rest
  | _ :: rest => hasLoneHalf rest
  | [] => false

namespace Snapshot

variable {room : Nat} {file : String} {state : FileState} {nodes : Nodes}

/-! ### What is read -/

/-- The object on a line, if it holds one. -/
def record? (line : String) : Option (Catalog String Json) :=
  match Json.parse? .standard line with
  | some (.object members) => some members
  | _ => none

/-- The lines of a snapshot file. -/
def linesIn : FileState → List String
  | .bytes content => (Text.LineSource.ofBytes content).lines
  | _ => []

/-- The objects on the lines of a snapshot file. -/
def recordsIn (state : FileState) : List (Catalog String Json) := (linesIn state).filterMap record?

/-- A record of a file whose size or blocks are an infinite number. -/
structure Boundless (members : Catalog String Json) : Prop where
  isFile : (NodeKind.ofTag ((members.find? "type").getD .null)).isFile = true
  infinite : ∃ field ∈ ["size", "datablocks"], ((members.find? field).getD .null).isInfinite = true

instance (members : Catalog String Json) : Decidable (Boundless members) :=
  decidable_of_iff ((NodeKind.ofTag ((members.find? "type").getD .null)).isFile = true ∧
      ∃ field ∈ ["size", "datablocks"], ((members.find? field).getD .null).isInfinite = true)
    ⟨fun h => ⟨h.1, h.2⟩, fun h => ⟨h.isFile, h.infinite⟩⟩

/-- A record with a type that is none, and has more levels than there is room to show. -/
structure Overdeep (room : Nat) (members : Catalog String Json) : Prop where
  uncounted : (NodeKind.ofTag ((members.find? "type").getD .null)).isCounted = false
  deep : ((members.find? "type").getD .null).exceeds room = true

instance (room : Nat) (members : Catalog String Json) : Decidable (Overdeep room members) :=
  decidable_of_iff ((NodeKind.ofTag ((members.find? "type").getD .null)).isCounted = false ∧
      ((members.find? "type").getD .null).exceeds room = true)
    ⟨fun h => ⟨h.1, h.2⟩, fun h => ⟨h.uncounted, h.deep⟩⟩

/-- A line that is read as it should be: it escapes no half of a surrogate pair alone, and what is
recorded on it has no infinite count and no type too deep to be shown. -/
structure Regular (room : Nat) (line : String) : Prop where
  paired : Json.hasLoneHalf line.toList = false
  bounded : ∀ members, record? line = some members → ¬ Boundless members
  shallow : ∀ members, record? line = some members → ¬ Overdeep room members

instance (room : Nat) (line : String) : Decidable (Regular room line) :=
  decidable_of_iff (Json.hasLoneHalf line.toList = false ∧ (record? line).all (fun members =>
      !decide (Boundless members) && !decide (Overdeep room members)) = true) <| by
    constructor
    · rintro ⟨hpaired, hall⟩
      refine ⟨hpaired, fun members hm => ?_, fun members hm => ?_⟩ <;> simp [hm] at hall
      · exact hall.1
      · exact hall.2
    · rintro ⟨hpaired, hbounded, hshallow⟩
      refine ⟨hpaired, ?_⟩
      cases hm : record? line with
      | none => rfl
      | some members => simp [hbounded members hm, hshallow members hm]

/-! ### Ends -/

/-- How a computation over some records ends: with something sound, with a fault of the snapshot, out
of range over a boundless record, or over one that is too deep. -/
inductive Ends {α : Type} (room : Nat) (sound : α → Prop) (records : List (Catalog String Json)) :
    Except Fault α → Prop
  | sound {a : α} : sound a → Ends room sound records (.ok a)
  | refused (why : SnapshotFault) : Ends room sound records (.error (.snapshot why))
  | outOfRange {members : Catalog String Json} :
      members ∈ records → Boundless members → Ends room sound records (.error .outOfRange)
  | tooDeep {members : Catalog String Json} :
      members ∈ records → Overdeep room members → Ends room sound records (.error .tooDeep)

namespace Ends

variable {α β : Type} {sound : α → Prop} {sound' : β → Prop}
  {records records' : List (Catalog String Json)} {f : Fault}

theorem mono {x : Except Fault α} (h : Ends room sound records x) (hr : records ⊆ records') :
    Ends room sound records' x := by
  cases h with
  | sound ha => exact .sound ha
  | refused why => exact .refused why
  | outOfRange hm hb => exact .outOfRange (hr hm) hb
  | tooDeep hm hd => exact .tooDeep (hr hm) hd

/-- A fault is passed on as it is. -/
theorem error (h : Ends room sound records (.error f)) : Ends room sound' records (.error f) := by
  cases h with
  | refused why => exact .refused why
  | outOfRange hm hb => exact .outOfRange hm hb
  | tooDeep hm hd => exact .tooDeep hm hd

end Ends

/-! ### Entries -/

/-- A count of an entry is there, and zero unless the entry is a file, or it is infinite. -/
theorem countOf_cases (members : Catalog String Json) (kind : NodeKind) (field : String) :
    (∃ n, countOf members kind field = .ok n ∧ (kind.isFile = false → n = 0)) ∨
      countOf members kind field = .error .outOfRange ∧ kind.isFile = true ∧
        ((members.find? field).getD .null).isInfinite = true := by
  unfold countOf
  cases hk : kind.isFile with
  | false =>
    -- Only a file is asked for its counts.
    exact .inl ⟨0, rfl, fun _ => rfl⟩
  | true =>
    rw [if_pos rfl]
    cases hc : ((members.find? field).getD .null).toCount with
    | ok n => exact .inl ⟨n, rfl, nofun⟩
    | error f =>
      obtain ⟨rfl, hinfinite⟩ := Json.toCount_eq_error_iff.1 hc
      exact .inr ⟨rfl, rfl, hinfinite⟩

theorem Entry.ends_ofMembers (room : Nat) (place : Place) (members : Catalog String Json) :
    Ends room (fun e : Entry => e.node.Sound) [members] (Entry.ofMembers room place members) := by
  have boundless {field : String} (hf : field ∈ ["size", "datablocks"])
      (hk : (NodeKind.ofTag ((members.find? "type").getD .null)).isFile = true)
      (hi : ((members.find? field).getD .null).isInfinite = true) :
      Ends room (fun e : Entry => e.node.Sound) [members] (.error .outOfRange) :=
    .outOfRange (List.mem_singleton_self members) ⟨hk, field, hf, hi⟩
  simp only [Entry.ofMembers, bind, Except.bind, pure, Except.pure, throw, throwThe,
    MonadExceptOf.throw]
  split
  · exact .refused _
  · split
    · -- A type that is none is shown, if it can be.
      rename_i hcounted
      unfold Json.displayWithin
      by_cases hdeep : ((members.find? "type").getD .null).exceeds room = true
      · rw [if_pos hdeep]
        exact .tooDeep (List.mem_singleton_self members) ⟨by simpa using hcounted, hdeep⟩
      · rw [if_neg hdeep]
        exact .refused _
    · -- The kind is counted from here on.
      rename_i hcounted
      obtain ⟨size, hs, hs₀⟩ | ⟨hs, hk, hi⟩ :=
        countOf_cases members (NodeKind.ofTag ((members.find? "type").getD .null)) "size"
      · obtain ⟨blocks, hb, hb₀⟩ | ⟨hb, hk, hi⟩ :=
          countOf_cases members (NodeKind.ofTag ((members.find? "type").getD .null)) "datablocks"
        · rw [hs, hb]
          refine .sound ⟨by simpa using hcounted, Int.natCast_nonneg _, Int.natCast_nonneg _, ?_⟩
          intro hfile
          rw [hs₀ hfile, hb₀ hfile]
          exact ⟨rfl, rfl⟩
        · rw [hs, hb]
          exact boundless (by simp) hk hi
      · rw [hs]
        exact boundless (by simp) hk hi

theorem Entry.ends_parse (room : Nat) (place : Place) (line : String) :
    Ends room (fun e : Entry => e.node.Sound) (record? line).toList (Entry.parse room place line) := by
  unfold Entry.parse record?
  cases Json.parse? .standard line with
  | none => exact .refused _
  | some v =>
    cases v with
    | object members => exact Entry.ends_ofMembers room place members
    | _ => exact .refused _

/-! ### Loading -/

/-- Nodes that are sound, one by one. -/
def Nodes.Sound (nodes : Nodes) : Prop := ∀ node ∈ nodes.values, node.Sound

theorem Nodes.Sound.put (h : nodes.Sound) {e : Entry} (he : e.node.Sound) :
    Nodes.Sound (Catalog.put e.path e.node nodes) := by
  intro node hn
  rcases Catalog.mem_values_put hn with rfl | hn
  · exact he
  · exact h node hn

theorem ends_addLines {number : Int} {lines : List String} (h : nodes.Sound) :
    Ends room Nodes.Sound (lines.filterMap record?) (addLines room file nodes number lines) := by
  induction lines generalizing nodes number with
  | nil => exact .sound h
  | cons line rest ih =>
    have hrest : rest.filterMap record? ⊆ (line :: rest).filterMap record? :=
      ((List.sublist_cons_self line rest).filterMap record?).subset
    have hline : (record? line).toList ⊆ (line :: rest).filterMap record? := by
      intro members hm
      exact List.mem_filterMap.2 ⟨line, List.mem_cons_self, Option.mem_toList.1 hm⟩
    simp only [addLines]
    split
    · -- A blank line is no record.
      exact (ih h).mono hrest
    · have he := Entry.ends_parse room ⟨file, number⟩ line
      split
      · rename_i entry hentry
        rw [hentry] at he
        cases he with
        | sound he => exact (ih (h.put he)).mono hrest
      · rename_i f hf
        rw [hf] at he
        exact he.error.mono hline

theorem ends_readNodes (room : Nat) (file : String) (state : FileState) :
    Ends room Nodes.Sound (recordsIn state) (readNodes room file state) := by
  cases state with
  | bytes content =>
    have hlines : Ends room Nodes.Sound (recordsIn (.bytes content))
        (addLines room file [] 1 (Text.LineSource.ofBytes content).lines) :=
      ends_addLines (by simp [Nodes.Sound, Catalog.values])
    simp only [readNodes, bind, Except.bind, throw, throwThe, MonadExceptOf.throw, pure, Except.pure]
    split
    · rename_i f hf
      rw [hf] at hlines
      exact hlines
    · rename_i nodes hn
      split
      · exact .refused _
      · rw [hn] at hlines
        exact hlines
  | _ => exact .refused _

theorem Tree.ends_ofNodes (room : Nat) (h : nodes.Sound) :
    Ends room (fun t : Tree => t.nodes.Sound) [] (Tree.ofNodes nodes) := by
  unfold Tree.ofNodes
  dsimp only
  split
  · exact .refused _
  · exact .sound h

theorem ends_load (room : Nat) (verbose : Bool) (file : String) (state : FileState) :
    Ends room (fun t : Tree => t.nodes.Sound) (recordsIn state) (load room verbose file state).2 := by
  have hread := ends_readNodes room file state
  unfold load
  split
  · rename_i f hf
    rw [hf] at hread
    exact hread.error
  · rename_i nodes hn
    rw [hn] at hread
    cases hread with
    | sound hnodes => exact (Tree.ends_ofNodes room hnodes).mono (List.nil_subset _)

theorem Tree.sound_of_load {verbose : Bool} {t : Tree} (h : (load room verbose file state).2 = .ok t) :
    t.nodes.Sound := by
  have hends := ends_load room verbose file state
  rw [h] at hends
  cases hends with
  | sound ht => exact ht

/-- **Every problem of a snapshot is a fault of the snapshot, infinite counts and deep types apart.**
Whatever stands in the place of the file, loading gives a tree whose nodes are sound, or a fault of the
snapshot, or it meets a file whose size or blocks are an infinite number, or a type that is none and
too deep to be shown. -/
theorem load_cases (room : Nat) (verbose : Bool) (file : String) (state : FileState) :
    (∃ t, (load room verbose file state).2 = .ok t ∧ ∀ node ∈ t.nodes.values, node.Sound) ∨
      (∃ why, (load room verbose file state).2 = .error (.snapshot why)) ∨
      ((load room verbose file state).2 = .error .outOfRange ∧
        ∃ members ∈ recordsIn state, Boundless members) ∨
      ((load room verbose file state).2 = .error .tooDeep ∧
        ∃ members ∈ recordsIn state, Overdeep room members) := by
  have h := ends_load room verbose file state
  generalize (load room verbose file state).2 = x at h ⊢
  cases h with
  | sound ht => exact .inl ⟨_, rfl, ht⟩
  | refused why => exact .inr (.inl ⟨why, rfl⟩)
  | outOfRange hm hb => exact .inr (.inr (.inl ⟨rfl, _, hm, hb⟩))
  | tooDeep hm hd => exact .inr (.inr (.inr ⟨rfl, _, hm, hd⟩))

/-- A line that records a file with an infinite size. -/
def endlessFile : String :=
  "\x7b\"path\":\"/a\",\"type\":\"FS_FILE_TYPE_FILE\",\"size\":1e999\x7d"

/-- **An infinite size is no fault of the snapshot.** -/
theorem load_broken_by_infinite_size :
    (load 1000 false "list" (.ofText endlessFile)).2 = .error .outOfRange := by
  have hlines : (Text.LineSource.ofBytes (Text.utf8Bytes endlessFile)).lines = [endlessFile] := by
    decide +kernel
  have hblank : Text.isBlankText endlessFile = false := by decide +kernel
  have hparse : Json.parse? .standard endlessFile = some (.object
      [("path", .text "/a"), ("type", NodeKind.file.tag), ("size", .real (.infinite false))]) := rfl
  have hentry : Entry.parse 1000 ⟨"list", 1⟩ endlessFile = .error .outOfRange := by
    unfold Entry.parse
    rw [hparse]
    rfl
  have hadd : addLines 1000 "list" [] 1 [endlessFile] = .error .outOfRange := by
    unfold addLines
    rw [hblank, hentry]
    rfl
  have hread : readNodes 1000 "list" (.ofText endlessFile) = .error .outOfRange := by
    show (addLines 1000 "list" [] 1 (Text.LineSource.ofBytes (Text.utf8Bytes endlessFile)).lines >>= _) = _
    rw [hlines, hadd]
    rfl
  unfold load
  rw [hread]

end Snapshot

end UsageLedger
