/-
UsageLedger/Proofs/Snapshot/Linking.lean

The index of a snapshot is what a loop over texts builds, and it is exact.

The loop knows paths as texts.  It keeps a set of linked paths, and links a path that is
neither the root nor linked to the directory that its text names; then it goes on with
that directory, and at the end of a climb with the next recorded path.  Of the text of a
path the directory is the text of its parent (`Path.directoryOf_text`), so a round of the
loop is a step of `Index.climb` as long as the linked paths are the listed ones
(`Shows.round`).  Every round shortens what is still to be climbed, which bounds their
number (`Shows.after`).

What the index holds follows from what is listed after a climb, in the module on the
index.  The main statement is `Linking.ends_exact`.
-/
import Mathlib.Data.List.DropRight
import Mathlib.Data.List.Nodup
import UsageLedger.Proofs.Canonical
import UsageLedger.Proofs.Catalog
import UsageLedger.Proofs.Snapshot.Index

namespace UsageLedger

/-! ### Directories of texts -/

namespace Path

/-- The directory that a text names: what stands before its last slash, without slashes at the end
unless that is all. -/
def directoryOf (s : String) : String :=
  let front := s.toList.rdropWhile (· != '/')
  String.ofList (if front.all (· == '/') then front else front.rdropWhile (· == '/'))

/-- What stands up to the last slash. -/
theorem rdropWhile_append_slash (front : List Char) {name : List Char} (h : '/' ∉ name) :
    (front ++ '/' :: name).rdropWhile (· != '/') = front ++ ['/'] := by
  have hname : ∀ c ∈ name.reverse, (c != '/') = true := fun c hc =>
    bne_iff_ne.2 fun he => h (he ▸ List.mem_reverse.1 hc)
  rw [List.rdropWhile, List.reverse_append, List.reverse_cons, List.append_assoc,
    List.dropWhile_append_of_pos hname]
  simp

/-- The characters of a path are those of its parent, a slash, and the last name; below the root only
one slash stands there. -/
theorem exists_toList_text {p : Path} (h : p ≠ root) :
    ∃ name : List Char, '/' ∉ name ∧
      p.text.toList = (if p.parent = root then [] else p.parent.text.toList) ++ '/' :: name := by
  have hchars {q : Path} (hq : q ≠ root) :
      q.text.toList = q.names.flatMap fun name => '/' :: name.toList := by
    rw [text, String.toList_ofList, chars, if_neg (by simpa using names_ne_nil hq)]
  obtain ⟨name, hname, hsplit⟩ : ∃ name ∈ p.names, p.names = p.parent.names ++ [name] :=
    ⟨_, List.getLast_mem (names_ne_nil h), (List.dropLast_concat_getLast (names_ne_nil h)).symm⟩
  refine ⟨name.toList, (toList_of_mem hname).2, ?_⟩
  rw [hchars h, hsplit, List.flatMap_append, List.flatMap_singleton]
  congr 1
  split
  · rename_i hroot
    rw [hroot]
    rfl
  · rename_i hroot
    exact (hchars hroot).symm

/-- **The directory that the text of a path names** is its parent. -/
theorem directoryOf_text {p : Path} (h : p ≠ root) : directoryOf p.text = p.parent.text := by
  obtain ⟨name, hslash, htext⟩ := exists_toList_text h
  unfold directoryOf
  rw [htext, rdropWhile_append_slash _ hslash]
  dsimp only
  by_cases hroot : p.parent = root
  · rw [if_pos hroot, hroot]
    rfl
  · -- The text of the parent does not end with a slash, so the one slash behind it is taken off.
    have hlast := (isCanonical_text p.parent).last fun he => hroot (text_injective he)
    have hne : p.parent.text.toList ≠ [] := by
      rw [toList_text]
      exact List.cons_ne_nil _ _
    rw [List.getLast?_eq_some_getLast hne, Option.some_inj.ne] at hlast
    have hmore : (p.parent.text.toList ++ ['/']).all (· == '/') = false := by
      refine List.all_eq_false.2 ⟨_, List.mem_append_left _ (List.getLast_mem hne), ?_⟩
      simpa using hlast
    have hkept : p.parent.text.toList.rdropWhile (· == '/') = p.parent.text.toList :=
      List.rdropWhile_eq_self_iff.2 fun _ => by simpa using hlast
    rw [if_neg hroot, hmore, if_neg Bool.false_ne_true, List.rdropWhile_concat_pos _ _ _ (by decide),
      hkept, String.ofList_toList]

end Path

namespace Snapshot

variable {index : Index} {p q : Path} {coming : List Path} {n : ℕ}

/-! ### The loop -/

/-- The loop between two rounds: what directories hold, the paths that are linked, where the climb has
come, and the recorded paths that are still to come. -/
structure Linking where
  children : Catalog String (List String)
  linked : List String
  child : String
  coming : List String

namespace Linking

variable {s : Linking}

/-- The loop before the first path; a climb is over at the root. -/
def start (paths : List String) : Linking := ⟨[], [], "/", paths⟩

/-- Links a path to its directory, and climbs there. -/
def link (s : Linking) : Linking :=
  { s with
    children := s.children.update (Path.directoryOf s.child) [] (· ++ [s.child])
    linked := s.child :: s.linked
    child := Path.directoryOf s.child }

/-- The next round, if there is one: the climb goes on, or the next path takes its turn. -/
def round? (s : Linking) : Option Linking :=
  if s.child ≠ "/" ∧ s.child ∉ s.linked then some s.link
  else
    match s.coming with
    | [] => none
    | path :: rest => some { s with child := path, coming := rest }

/-- The loop so many rounds later, or where it ended before. -/
def after (s : Linking) : ℕ → Linking
  | 0 => s
  | n + 1 =>
    match s.round? with
    | some s' => s'.after n
    | none => s

theorem after_of_round? {s' : Linking} (h : s.round? = some s') (n : ℕ) :
    s.after (n + 1) = s'.after n := by
  rw [after, h]

theorem after_of_ended (h : s.round? = none) (n : ℕ) : s.after n = s := by
  cases n with
  | zero => rfl
  | succ n => rw [after, h]

end Linking

/-! ### The loop in terms of paths -/

/-- An index with all paths as texts. -/
def Index.texts (index : Index) : Catalog String (List String) :=
  index.map fun e => (e.1.text, e.2.map Path.text)

theorem Index.texts_list (index : Index) (p : Path) :
    (index.list p).texts = index.texts.update p.parent.text [] (· ++ [p.text]) := by
  unfold Index.texts Index.list Index.childrenOf Catalog.update
  rw [Catalog.find?_map Path.text_injective, Catalog.map_put Path.text_injective, List.map_append]
  cases Catalog.find? p.parent index <;> rfl

/-- The loop has an index, climbs at a path and has others to come; the linked paths are those that the
index lists. -/
structure Shows (s : Linking) (index : Index) (p : Path) (coming : List Path) : Prop where
  children : s.children = index.texts
  linked : ∀ q : Path, q.text ∈ s.linked ↔ index.Listed q
  child : s.child = p.text
  coming : s.coming = coming.map Path.text

theorem shows_start (paths : List Path) :
    Shows (.start (paths.map Path.text)) [] .root paths where
  children := rfl
  linked := by simp [Linking.start, Index.Listed, Index.childrenOf, Catalog.find?]
  child := rfl
  coming := rfl

namespace Shows

variable {s : Linking}

theorem climbs_iff (h : Shows s index p coming) :
    (s.child ≠ "/" ∧ s.child ∉ s.linked) ↔ p ≠ .root ∧ ¬ index.Listed p := by
  have hroot : p.text = "/" ↔ p = .root := Path.text_injective.eq_iff' rfl
  rw [h.child, h.linked, Ne, hroot]

/-- **A round of the climb** lists the path in its parent. -/
theorem climb (h : Shows s index p coming) (hp : p ≠ .root ∧ ¬ index.Listed p) :
    s.round? = some s.link ∧ Shows s.link (index.list p) p.parent coming := by
  have hdirectory : Path.directoryOf s.child = p.parent.text := by
    rw [h.child, Path.directoryOf_text hp.1]
  refine ⟨if_pos (h.climbs_iff.2 hp), ⟨?_, fun q => ?_, hdirectory, h.coming⟩⟩
  · rw [Index.texts_list, Linking.link, hdirectory, h.children, h.child]
  · rw [Index.listed_list, Linking.link, List.mem_cons, h.linked, h.child, Path.text_injective.eq_iff,
      or_comm]

/-- Where the climb is over, the next path takes its turn. -/
theorem turn (h : Shows s index p (q :: coming)) (hp : ¬ (p ≠ .root ∧ ¬ index.Listed p)) :
    ∃ s', s.round? = some s' ∧ Shows s' index q coming := by
  refine ⟨{ s with child := q.text, coming := coming.map Path.text }, ?_, ⟨h.children, h.linked, rfl, rfl⟩⟩
  unfold Linking.round?
  rw [if_neg (h.climbs_iff.not.2 hp), h.coming]
  rfl

theorem ended (h : Shows s index p []) (hp : ¬ (p ≠ .root ∧ ¬ index.Listed p)) : s.round? = none := by
  unfold Linking.round?
  rw [if_neg (h.climbs_iff.not.2 hp), h.coming]
  rfl

end Shows

/-! ### The end of the loop -/

/-- How many rounds there may be: one for each name of a path, and one for its turn. -/
def rounds (paths : List Path) : ℕ := (paths.map fun p => p.names.length + 1).sum

theorem Index.climb_of_not (h : ¬ (p ≠ .root ∧ ¬ index.Listed p)) : index.climb p = index := by
  unfold Index.climb
  rw [if_pos]
  rw [Bool.or_eq_true, decide_eq_true_eq, Index.lists_iff]
  tauto

theorem Index.climb_of (h : p ≠ .root ∧ ¬ index.Listed p) :
    index.climb p = (index.list p).climb p.parent := by
  rw [Index.climb, if_neg]
  · rfl
  · rw [Bool.or_eq_true, decide_eq_true_eq, Index.lists_iff]
    tauto

theorem Shows.after_ended {s : Linking} (h : Shows s index p []) (hp : ¬ (p ≠ .root ∧ ¬ index.Listed p))
    (n : ℕ) : (s.after n).round? = none ∧ (s.after n).children = (index.climb p).texts := by
  have hended := h.ended hp
  rw [Linking.after_of_ended hended, Index.climb_of_not hp]
  exact ⟨hended, h.children⟩

/-- **The loop ends**, and it has built what the climbs from all paths come to. -/
theorem Shows.after {s : Linking} (h : Shows s index p coming)
    (hn : p.names.length + rounds coming ≤ n) :
    (s.after n).round? = none ∧ (s.after n).children = (coming.foldl Index.climb (index.climb p)).texts := by
  -- Induction on the rounds that are left: each one takes a name of a path away, or the turn of one.
  induction n generalizing s index p coming with
  | zero =>
    cases coming with
    | nil => exact h.after_ended (fun hp => Path.names_ne_nil hp.1 (by simpa [rounds] using hn)) 0
    | cons q rest => simp [rounds] at hn
  | succ n ih =>
    by_cases hp : p ≠ .root ∧ ¬ index.Listed p
    · obtain ⟨hround, hshows⟩ := h.climb hp
      have hshorter := Path.length_parent_add_one hp.1
      rw [Linking.after_of_round? hround, Index.climb_of hp]
      exact ih hshows (by omega)
    · cases coming with
      | nil => exact h.after_ended hp (n + 1)
      | cons q rest =>
        obtain ⟨s', hround, hshows⟩ := h.turn hp
        rw [rounds, List.map_cons, List.sum_cons] at hn
        rw [Linking.after_of_round? hround, Index.climb_of_not hp, List.foldl_cons]
        exact ih hshows (by rw [rounds]; omega)

/-! ### What the index holds -/

/-- An index is exact for some recorded paths: no directory occurs twice, and none without anything in
it; a directory lists its children that are recorded or above a recorded path, each of them once,
and nothing that another directory lists; and it is listed itself unless it is the root. -/
structure Index.Exact (index : Index) (paths : List Path) : Prop where
  nodup_keys : index.keys.Nodup
  ne_nil : ∀ {d held}, (d, held) ∈ index → held ≠ []
  mem_iff : ∀ {d q}, q ∈ index.childrenOf d ↔
    q ≠ .root ∧ d = q.parent ∧ (q ∈ paths ∨ ∃ p ∈ paths, p ≠ q ∧ p.Within q)
  count_eq_one : ∀ {d q}, q ∈ index.childrenOf d → (index.childrenOf d).count q = 1
  alone : ∀ {d held q}, (d, held) ∈ index → q ∈ held → d = q.parent
  linked : ∀ {d}, d ∈ index.keys → d ≠ .root → d ∈ index.childrenOf d.parent

theorem known_iff {paths : List Path} :
    Known paths q ↔ q ∈ paths ∨ ∃ p ∈ paths, p ≠ q ∧ p.Within q := by
  constructor
  · rintro ⟨p, hp, hw⟩
    by_cases hpq : p = q
    · exact .inl (hpq ▸ hp)
    · exact .inr ⟨p, hp, hpq, hw⟩
  · rintro (hq | ⟨p, hp, _, hw⟩)
    · exact ⟨q, hq, .refl q⟩
    · exact ⟨p, hp, hw⟩

theorem Index.exact_ofPaths (paths : List Path) : (ofPaths paths).Exact paths := by
  have hsound := sound_ofPaths paths
  have hfind {d : Path} {held : List Path} (h : (d, held) ∈ ofPaths paths) :
      Catalog.find? d (ofPaths paths) = some held := Catalog.find?_of_mem (nodup_keys_ofPaths paths) h
  refine ⟨nodup_keys_ofPaths paths, fun h => hsound.ne_nil (hfind h), ?_, fun hq => ?_, ?_, ?_⟩
  · intro d q
    rw [mem_childrenOf_ofPaths, known_iff, eq_comm (a := d)]
  · exact List.count_eq_one_of_mem (hsound.nodup _) hq
  · intro d held q h hq
    have hchild : q ∈ (ofPaths paths).childrenOf d := by rwa [childrenOf, hfind h]
    exact (hsound.child hchild).2.symm
  · intro d hd hroot
    -- A key has a child, whose known descendant lies below the key as well.
    have hhas : (ofPaths paths).has d = true := (Catalog.find?_isSome_iff d _).2 hd
    obtain ⟨q, _, hparent, hknown⟩ := has_ofPaths_iff.1 hhas
    exact mem_childrenOf_ofPaths.2 ⟨hroot, rfl, hknown.within (hparent ▸ Path.within_parent q)⟩

/-- **The loop over the paths of any nodes ends, and its index is exact**, whatever the order of the
nodes.  It takes no more rounds than the paths have names, and one for each path; and what it has
built then is the index of the nodes, with all paths as texts. -/
theorem Linking.ends_exact (nodes : Nodes) :
    ∃ ended, (start (nodes.keys.map Path.text)).after (rounds nodes.keys) = ended ∧
      ended.round? = none ∧ ended.children = (Index.ofPaths nodes.keys).texts ∧
      (Index.ofPaths nodes.keys).Exact nodes.keys := by
  have hroot : Index.climb [] .root = [] := Index.climb_of_not fun h => h.1 rfl
  obtain ⟨hended, hchildren⟩ := (shows_start nodes.keys).after (Nat.zero_add _).le
  rw [hroot] at hchildren
  exact ⟨_, rfl, hended, hchildren, Index.exact_ofPaths nodes.keys⟩

end Snapshot

end UsageLedger
