/-
UsageLedger/Proofs/Snapshot/Contents.lean

What loading makes of a text.  Lines are counted from one, blank ones too, but only the
others are read (`numbered`).  The first of them that describes no entry ends the
loading, with a fault that names its number; if there is none, the entries that the
lines describe go into the nodes one after another (`addLines_cases`).  Then a path
stands where it was first given, and the last entry with it counts (`Collects`).

Two spellings of a path are one path, so what counts here is what a line makes of the
path that it gives (`Describes`).
-/
import Mathlib.Data.List.Forall2
import UsageLedger.Proofs.Catalog
import UsageLedger.Proofs.Snapshot.Faults
import UsageLedger.Proofs.Text.Lines

namespace UsageLedger.Snapshot

variable {room : ℕ} {file : String} {nodes : Nodes} {lines : List String}

/-! ### One line -/

/-- The faults of a line, for what is at one place. -/
inductive Place.Refuses (place : Place) : SnapshotFault → Prop
  | badLine : Refuses place (.badLine place.file place.line)
  | noPath : Refuses place (.noPath place.file place.line)
  | unknownKind (shown : String) : Refuses place (.unknownKind place.file place.line shown)

/-- The message begins with the file and the number of the line. -/
theorem Place.Refuses.exists_message {place : Place} {why : SnapshotFault} (h : place.Refuses why) :
    ∃ what, why.message = place.file ++ ":" ++ toString place.line ++ ": " ++ what := by
  have hbad : ": invalid JSON" = ": " ++ "invalid JSON" := by decide +kernel
  have hno : ": entry has no path" = ": " ++ "entry has no path" := by decide +kernel
  have hkind : ": unknown entry type: " = ": " ++ "unknown entry type: " := by decide +kernel
  cases h with
  | badLine =>
    refine ⟨"invalid JSON", ?_⟩
    show _ ++ ": invalid JSON" = _
    rw [hbad]
    simp only [String.append_assoc]
  | noPath =>
    refine ⟨"entry has no path", ?_⟩
    show _ ++ ": entry has no path" = _
    rw [hno]
    simp only [String.append_assoc]
  | unknownKind shown =>
    refine ⟨"unknown entry type: " ++ shown, ?_⟩
    show _ ++ ": unknown entry type: " ++ shown = _
    rw [hkind]
    simp only [String.append_assoc]

theorem Entry.refuses_of_ofMembers {place : Place} {members : Catalog String Json}
    {why : SnapshotFault} (h : Entry.ofMembers room place members = .error (.snapshot why)) :
    place.Refuses why := by
  simp only [Entry.ofMembers, bind, Except.bind, pure, Except.pure, throw, throwThe,
    MonadExceptOf.throw] at h
  split at h
  · cases h
    exact .noPath
  · split at h
    · -- A type that is none may also be too deep, which is no fault of the snapshot.
      split at h <;> rename_i hshown
      · cases h
        unfold Json.displayWithin at hshown
        split at hshown <;> cases hshown
      · cases h
        exact .unknownKind _
    · -- From here on only an infinite count can stop it, and that is no fault of the snapshot.
      obtain ⟨size, hs, _⟩ | ⟨hs, _⟩ :=
        countOf_cases members (NodeKind.ofTag ((members.find? "type").getD .null)) "size"
      · obtain ⟨blocks, hb, _⟩ | ⟨hb, _⟩ :=
          countOf_cases members (NodeKind.ofTag ((members.find? "type").getD .null)) "datablocks"
        · rw [hs, hb] at h
          cases h
        · rw [hs, hb] at h
          cases h
      · rw [hs] at h
        cases h

/-- A regular line describes an entry, or is refused where it stands. -/
theorem Entry.refuses_of_parse {place : Place} {line : String} {f : Fault} (hl : Regular room line)
    (h : Entry.parse room place line = .error f) : ∃ why, f = .snapshot why ∧ place.Refuses why := by
  have hends := Entry.ends_parse room place line
  rw [h] at hends
  cases hends with
  | outOfRange hm hb => exact absurd hb (hl.bounded _ (Option.mem_toList.1 hm))
  | tooDeep hm hd => exact absurd hd (hl.shallow _ (Option.mem_toList.1 hm))
  | refused why =>
    refine ⟨why, rfl, ?_⟩
    unfold Entry.parse at h
    split at h
    · cases h
      exact .badLine
    · exact Entry.refuses_of_ofMembers h
    · cases h
      exact .noPath

/-- The path of an entry is made of the text that the record gives for it. -/
theorem Entry.path_of_ofMembers {place : Place} {members : Catalog String Json} {e : Entry}
    (h : Entry.ofMembers room place members = .ok e) :
    ∃ given, members.find? "path" = some (.text given) ∧ e.path = .ofText given := by
  simp only [Entry.ofMembers, bind, Except.bind, pure, Except.pure, throw, throwThe,
    MonadExceptOf.throw] at h
  split at h
  · cases h
  · rename_i hgiven
    have hpath : e.path = .ofText (((members.find? "path").getD .null).text?.getD "") := by
      split at h
      · split at h <;> cases h
      · split at h
        · cases h
        · split at h
          · cases h
          · cases h
            rfl
    cases hfind : members.find? "path" with
    | none => simp [hfind, Json.text?] at hgiven
    | some v =>
      cases v with
      | text given => exact ⟨given, rfl, by rw [hpath, hfind]; rfl⟩
      | _ => simp [hfind, Json.text?] at hgiven

/-! ### The lines of a text -/

/-- The lines that are not blank, with their numbers.  The first line has a given number, and blank
lines count. -/
def numbered (first : ℕ) (lines : List String) : List (String × ℕ) :=
  (lines.zipIdx first).filter fun l => !Text.isBlankText l.1

theorem mem_numbered_iff {first : ℕ} {l : String × ℕ} : l ∈ numbered first lines ↔
    (first ≤ l.2 ∧ lines[l.2 - first]? = some l.1) ∧ Text.isBlankText l.1 = false := by
  rw [numbered, List.mem_filter, List.mem_zipIdx_iff_le_and_getElem?_sub, Bool.not_eq_true']

/-- What the line with a number is read as. -/
def entryAt (room : ℕ) (file : String) (l : String × ℕ) : Except Fault Entry :=
  Entry.parse room ⟨file, l.2⟩ l.1

/-- A numbered line describes an entry: it is read as this entry, and it gives its path, in one
spelling or another. -/
structure Describes (room : ℕ) (file : String) (l : String × ℕ) (e : Entry) : Prop where
  read : entryAt room file l = .ok e
  path : ∃ members given, record? l.1 = some members ∧ members.find? "path" = some (.text given) ∧
    e.path = .ofText given

/-- The first of some numbered lines that is not read as an entry, and why. -/
structure FirstRefused (room : ℕ) (file : String) (numbered : List (String × ℕ)) (l : String × ℕ)
    (f : Fault) : Prop where
  refused : entryAt room file l = .error f
  first : ∃ before after, numbered = before ++ l :: after ∧
    ∀ l' ∈ before, ∃ e, entryAt room file l' = .ok e

theorem describes_of_entryAt {l : String × ℕ} {e : Entry} (h : entryAt room file l = .ok e) :
    Describes room file l e := by
  refine ⟨h, ?_⟩
  unfold entryAt Entry.parse at h
  split at h
  · cases h
  · rename_i members hmembers
    obtain ⟨given, hgiven, hpath⟩ := Entry.path_of_ofMembers h
    exact ⟨members, given, by rw [record?, hmembers], hgiven, hpath⟩
  · cases h

theorem FirstRefused.cons {ls : List (String × ℕ)} {l l' : String × ℕ} {e : Entry} {f : Fault}
    (he : entryAt room file l' = .ok e) (h : FirstRefused room file ls l f) :
    FirstRefused room file (l' :: ls) l f := by
  obtain ⟨before, after, rfl, hbefore⟩ := h.first
  exact ⟨h.refused, l' :: before, after, rfl, List.forall_mem_cons.2 ⟨⟨e, he⟩, hbefore⟩⟩

theorem FirstRefused.mem {ls : List (String × ℕ)} {l : String × ℕ} {f : Fault}
    (h : FirstRefused room file ls l f) : l ∈ ls := by
  obtain ⟨before, after, rfl, _⟩ := h.first
  exact List.mem_append_right before List.mem_cons_self

theorem exists_describes {ls : List (String × ℕ)} {entries : List Entry}
    (h : List.Forall₂ (Describes room file) ls entries) : ∀ l ∈ ls, ∃ e, Describes room file l e :=
  ((List.forall₂_and_left ls entries).1 (h.imp fun _ e he => ⟨⟨e, he⟩, he⟩)).1

/-- The nodes with those of some entries put in one after another. -/
def Nodes.collect (nodes : Nodes) (entries : List Entry) : Nodes :=
  entries.foldl (fun nodes e => nodes.put e.path e.node) nodes

/-- Lines are read up to the first one that is refused, or they are all read. -/
theorem addLines_cases (room : ℕ) (file : String) (nodes : Nodes) (first : ℕ) (lines : List String) :
    (∃ l f, FirstRefused room file (numbered first lines) l f ∧
        addLines room file nodes first lines = .error f) ∨
      ∃ entries, List.Forall₂ (Describes room file) (numbered first lines) entries ∧
        addLines room file nodes first lines = .ok (nodes.collect entries) := by
  induction lines generalizing nodes first with
  | nil => exact .inr ⟨[], .nil, rfl⟩
  | cons line rest ih =>
    have hnext : ((first + 1 : ℕ) : Int) = (first : Int) + 1 := Int.natCast_succ first
    unfold addLines
    rw [← hnext]
    by_cases hb : Text.isBlankText line = true
    · have hnumbered : numbered first (line :: rest) = numbered (first + 1) rest := by
        rw [numbered, List.zipIdx_cons, List.filter_cons_of_neg (by simp [hb]), numbered]
      rw [if_pos hb, hnumbered]
      exact ih nodes (first + 1)
    · have hnumbered :
          numbered first (line :: rest) = (line, first) :: numbered (first + 1) rest := by
        rw [numbered, List.zipIdx_cons, List.filter_cons_of_pos (by simpa using hb), numbered]
      rw [if_neg hb, hnumbered]
      cases hentry : Entry.parse room ⟨file, first⟩ line with
      | error f => exact .inl ⟨(line, first), f, ⟨hentry, [], _, rfl, by simp⟩, rfl⟩
      | ok e =>
        have hread : entryAt room file (line, first) = .ok e := hentry
        obtain ⟨l, f, hl, hadd⟩ | ⟨entries, hentries, hadd⟩ :=
          ih (Catalog.put e.path e.node nodes) (first + 1)
        · exact .inl ⟨l, f, hl.cons hread, hadd⟩
        · exact .inr ⟨e :: entries, .cons (describes_of_entryAt hread) hentries, hadd⟩

/-! ### The nodes of a text -/

/-- Nodes hold what some entries give: every path once, where it was first given, with the node that
was last given for it. -/
structure Nodes.Collects (nodes : Nodes) (entries : List Entry) : Prop where
  nodup : nodes.keys.Nodup
  keys_eq : nodes.keys = (entries.map Entry.path).eraseDups
  find?_eq : ∀ p, nodes.find? p = ((entries.filter fun e => e.path = p).getLast?).map Entry.node

theorem Nodes.collects_collect (entries : List Entry) : (Nodes.collect [] entries).Collects entries := by
  have hcollect : Nodes.collect [] entries =
      Catalog.ofEntries (entries.map fun e => (e.path, e.node)) := by
    rw [collect, Catalog.ofEntries, List.foldl_map]
  rw [hcollect]
  refine ⟨Catalog.nodup_keys_ofEntries _, ?_, fun p => ?_⟩
  · rw [Catalog.keys_ofEntries, List.map_map]
    rfl
  · rw [Catalog.find?_ofEntries, List.filter_map, List.getLast?_map, Option.map_map]
    rfl

/-- Reading a file with a text in it is reading the lines of the text. -/
theorem readNodes_ofText {text : String} (h : Text.IsLines text.toList (lines.map String.toList)) :
    readNodes room file (.ofText text) = addLines room file [] 1 lines := by
  have hlines : (Text.linesOf text.toList).map String.ofList = lines := by
    rw [← Text.isLines_iff.1 h, List.map_map]
    simp [Function.comp_def]
  show (addLines room file [] 1 (Text.LineSource.ofBytes (Text.utf8Bytes text)).lines >>= fun nodes =>
    _) = _
  rw [Text.ofBytes_utf8Bytes, hlines]
  cases addLines room file [] 1 lines <;> rfl

/-- **What loading builds** of a text with regular lines.  If a line that is not blank is read as no
entry, the first such line ends the loading, and the message names its number.  Otherwise every line
that is not blank describes an entry, and the tree is made of the nodes that hold what these entries
give. -/
theorem load_of_text (room : ℕ) (verbose : Bool) (file text : String)
    (hl : Text.IsLines text.toList (lines.map String.toList)) (hr : ∀ line ∈ lines, Regular room line) :
    ((∃ l ∈ numbered 1 lines, ∃ f, entryAt room file l = .error f) →
        ∃ l why what, FirstRefused room file (numbered 1 lines) l (.snapshot why) ∧
          why.message = file ++ ":" ++ toString l.2 ++ ": " ++ what ∧
          load room verbose file (.ofText text) = ("", .error (.snapshot why))) ∧
      ((∀ l ∈ numbered 1 lines, ∀ f, entryAt room file l ≠ .error f) →
        ∃ entries nodes, List.Forall₂ (Describes room file) (numbered 1 lines) entries ∧
          nodes.Collects entries ∧
          load room verbose file (.ofText text) =
            (if verbose then loadMessage file nodes else "", Tree.ofNodes nodes)) := by
  have hread : readNodes room file (.ofText text) = addLines room file [] (1 : ℕ) lines := readNodes_ofText hl
  unfold load
  rw [hread]
  obtain ⟨l₀, f₀, hfirst, hadd⟩ | ⟨entries, hentries, hadd⟩ := addLines_cases room file [] 1 lines
  · rw [hadd]
    refine ⟨fun _ => ?_, fun hnone => absurd hfirst.refused (hnone l₀ hfirst.mem f₀)⟩
    have hline : l₀.1 ∈ lines := List.mem_of_getElem? (mem_numbered_iff.1 hfirst.mem).1.2
    obtain ⟨why, rfl, hwhy⟩ := Entry.refuses_of_parse (hr l₀.1 hline) hfirst.refused
    obtain ⟨what, hwhat⟩ := hwhy.exists_message
    exact ⟨l₀, why, what, hfirst, hwhat, rfl⟩
  · rw [hadd]
    refine ⟨?_, fun _ => ⟨entries, _, hentries, Nodes.collects_collect entries, rfl⟩⟩
    -- A line that describes an entry is not refused.
    rintro ⟨l, hmem, f, hrefused⟩
    obtain ⟨e, he⟩ := exists_describes hentries l hmem
    rw [he.read] at hrefused
    cases hrefused

/-- A line with a file. -/
def fileLine : String :=
  "\x7b\"path\":\"/a//b\",\"type\":\"FS_FILE_TYPE_FILE\",\"name\":\"b\",\"size\":1\x7d"

/-- A line with a link, whose path is that of the file in another spelling. -/
def linkLine : String := "\x7b\"path\":\"a/b/\",\"type\":\"FS_FILE_TYPE_SYMLINK\",\"name\":\"b\"\x7d"

theorem parse?_fileLine : Json.parse? .standard fileLine = some (.object
    [("path", .text "/a//b"), ("type", NodeKind.file.tag), ("name", .text "b"), ("size", .int 1)]) := by
  rfl

theorem parse?_linkLine : Json.parse? .standard linkLine = some (.object
    [("path", .text "a/b/"), ("type", NodeKind.symlink.tag), ("name", .text "b")]) := by
  rfl

theorem entryAt_fileLine (number : ℕ) : entryAt 1000 "list" (fileLine, number) =
    .ok ⟨.ofText "/a/b", .file, .text "b", .null, .null, 1, 0⟩ := by
  have hpath : Path.ofText "/a/b" = .ofText "/a//b" := by decide +kernel
  unfold entryAt Entry.parse
  rw [parse?_fileLine, hpath]
  rfl

theorem entryAt_linkLine (number : ℕ) : entryAt 1000 "list" (linkLine, number) =
    .ok ⟨.ofText "/a/b", .symlink, .text "b", .null, .null, 0, 0⟩ := by
  have hpath : Path.ofText "/a/b" = .ofText "a/b/" := by decide +kernel
  unfold entryAt Entry.parse
  rw [parse?_linkLine, hpath]
  rfl

/-- A line that holds no record, and two that give one path in different spellings. -/
theorem load_of_text_respelled :
    load 1000 false "list" (.ofText "\r\n \n[]\n") = ("", .error (.snapshot (.noPath "list" 3))) ∧
      ∃ nodes : Nodes, nodes.keys = [.ofText "/a/b"] ∧
        nodes.find? (.ofText "/a/b") = some ⟨.symlink, .text "b", .null, .null, 0, 0⟩ ∧
        load 1000 false "list" (.ofText (fileLine ++ "\r\n\n" ++ linkLine)) = ("", Tree.ofNodes nodes) := by
  constructor
  · have hlines : Text.IsLines "\r\n \n[]\n".toList ((["", " ", "[]"] : List String).map String.toList) :=
      Text.isLines_iff.2 (by decide +kernel)
    have hregular : ∀ line ∈ ["", " ", "[]"], Regular 1000 line := by decide +kernel
    have hnumbered : numbered 1 ["", " ", "[]"] = [("[]", 3)] := by decide +kernel
    have hentry : entryAt 1000 "list" ("[]", 3) = .error (.snapshot (.noPath "list" 3)) := rfl
    obtain ⟨l, why, _, hfirst, _, hload⟩ :=
      (load_of_text 1000 false "list" _ hlines hregular).1
        ⟨("[]", 3), hnumbered ▸ List.mem_singleton_self _, _, hentry⟩
    have hl := hfirst.mem
    rw [hnumbered, List.mem_singleton] at hl
    have hread := hfirst.refused
    rw [hl, hentry] at hread
    cases hread
    exact hload
  · have hlines : Text.IsLines (fileLine ++ "\r\n\n" ++ linkLine).toList
        (([fileLine, "", linkLine] : List String).map String.toList) :=
      Text.isLines_iff.2 (by decide +kernel)
    have hregular : ∀ line ∈ [fileLine, "", linkLine], Regular 1000 line := by decide +kernel
    have hnumbered : numbered 1 [fileLine, "", linkLine] = [(fileLine, 1), (linkLine, 3)] := by
      decide +kernel
    obtain ⟨entries, nodes, hentries, hnodes, hload⟩ :=
      (load_of_text 1000 false "list" _ hlines hregular).2 (by
        rw [hnumbered]
        simp [entryAt_fileLine, entryAt_linkLine])
    rw [hnumbered] at hentries
    -- The two lines describe what they are read as.
    obtain ⟨_, _, hfile, hrest, rfl⟩ := List.forall₂_cons_left_iff.1 hentries
    obtain ⟨_, _, hlink, hnil, rfl⟩ := List.forall₂_cons_left_iff.1 hrest
    cases hnil
    cases (entryAt_fileLine 1).symm.trans hfile.read
    cases (entryAt_linkLine 3).symm.trans hlink.read
    refine ⟨nodes, ?_, ?_, hload⟩
    · rw [hnodes.keys_eq]
      decide +kernel
    · rw [hnodes.find?_eq]
      simp

end UsageLedger.Snapshot
