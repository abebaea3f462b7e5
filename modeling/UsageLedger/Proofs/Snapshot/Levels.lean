/-
UsageLedger/Proofs/Snapshot/Levels.lean

The order of a visit on one worker.  Level by level the visit goes through the directories
below its root, recorded or implied (`levelAt`), and through what each of them holds.  All
that it passes by stands in `inLevels`; the visits are those of the recorded paths in it
(`visits_eq`).

`Precedes` is the order of two members of a list.  In lists that are put together from
parts, two members stand as their parts do, or as in the part that they share
(`precedes_flatMap_iff`).  Used once, this compares depths; used on a level, it compares
parents in the level before and siblings in the list of their parent (`keeps_held`).
-/
import UsageLedger.Proofs.Snapshot.Coverage

namespace UsageLedger

/-! ### The order of a list -/

section Precedes

variable {α β : Type} {l l' : List α} {a b : α}

/-- Of two members of a list the first one comes before the second one. -/
def Precedes (l : List α) (a b : α) : Prop := [a, b].Sublist l

theorem Precedes.mem_left (h : Precedes l a b) : a ∈ l := h.subset List.mem_cons_self

theorem Precedes.mem_right (h : Precedes l a b) : b ∈ l :=
  h.subset (List.mem_cons_of_mem a List.mem_cons_self)

theorem not_precedes_self (hl : l.Nodup) (a : α) : ¬ Precedes l a a := by
  intro h
  have hpair := hl.sublist h
  simp at hpair

theorem precedes_cons_iff {c : α} : Precedes (c :: l) a b ↔ a = c ∧ b ∈ l ∨ Precedes l a b := by
  unfold Precedes
  rw [List.sublist_cons_iff]
  constructor
  · rintro (h | ⟨rest, heq, h⟩)
    · exact .inr h
    · cases heq
      exact .inl ⟨rfl, List.singleton_sublist.1 h⟩
  · rintro (⟨rfl, h⟩ | h)
    · exact .inr ⟨[b], rfl, List.singleton_sublist.2 h⟩
    · exact .inl h

theorem precedes_append_iff :
    Precedes (l ++ l') a b ↔ Precedes l a b ∨ a ∈ l ∧ b ∈ l' ∨ Precedes l' a b := by
  induction l with
  | nil =>
    have hnil : ¬ Precedes ([] : List α) a b := fun h => List.not_mem_nil h.mem_left
    simp [hnil]
  | cons c l ih =>
    rw [List.cons_append, precedes_cons_iff, precedes_cons_iff, ih, List.mem_append, List.mem_cons]
    tauto

/-- Leaving out other members changes nothing. -/
theorem precedes_filter_iff {f : α → Bool} (ha : f a = true) (hb : f b = true) :
    Precedes (l.filter f) a b ↔ Precedes l a b := by
  constructor
  · exact fun h => h.trans List.filter_sublist
  · intro h
    have hfilter := List.Sublist.filter f h
    rwa [List.filter_cons_of_pos ha, List.filter_cons_of_pos hb, List.filter_nil] at hfilter

theorem precedes_or_precedes (ha : a ∈ l) (hb : b ∈ l) (hne : a ≠ b) :
    Precedes l a b ∨ Precedes l b a := by
  induction l with
  | nil => cases ha
  | cons c l ih =>
    rw [precedes_cons_iff, precedes_cons_iff]
    rcases List.mem_cons.1 ha with rfl | ha'
    · exact .inl (.inl ⟨rfl, (List.mem_cons.1 hb).resolve_left hne.symm⟩)
    · rcases List.mem_cons.1 hb with rfl | hb'
      · exact .inr (.inl ⟨rfl, ha'⟩)
      · exact (ih ha' hb').imp .inr .inr

/-- Members of a list that is put together from parts stand as their parts do; members of one part
stand as they do there. -/
theorem precedes_flatMap_iff {f : α → List β} {g : β → α} {x y : β} (hl : l.Nodup)
    (hg : ∀ a ∈ l, ∀ x ∈ f a, g x = a) (hx : x ∈ l.flatMap f) (hy : y ∈ l.flatMap f) :
    Precedes (l.flatMap f) x y ↔ Precedes l (g x) (g y) ∨ g x = g y ∧ Precedes (f (g x)) x y := by
  induction l with
  | nil => cases hx
  | cons a rest ih =>
    obtain ⟨ha, hrest⟩ := List.nodup_cons.1 hl
    have hfirst {x : β} (hx : x ∈ f a) : g x = a := hg a List.mem_cons_self x hx
    have hlater {x : β} (hx : x ∈ rest.flatMap f) : g x ∈ rest := by
      obtain ⟨c, hc, hxc⟩ := List.mem_flatMap.1 hx
      exact hg c (List.mem_cons_of_mem a hc) x hxc ▸ hc
    have hne {x : β} (hx : x ∈ rest.flatMap f) : g x ≠ a := fun he => ha (he ▸ hlater hx)
    rw [List.flatMap_cons, precedes_append_iff, precedes_cons_iff]
    rw [List.flatMap_cons, List.mem_append] at hx hy
    rcases hx with hx | hx <;> rcases hy with hy | hy
    · -- Both are in the first part.
      have hx' : x ∉ rest.flatMap f := fun h => hne h (hfirst hx)
      have hy' : y ∉ rest.flatMap f := fun h => hne h (hfirst hy)
      have hself := not_precedes_self hrest a
      rw [hfirst hx, hfirst hy]
      constructor
      · rintro (h | ⟨_, h⟩ | h)
        · exact .inr ⟨rfl, h⟩
        · exact absurd h hy'
        · exact absurd h.mem_left hx'
      · rintro ((⟨_, h⟩ | h) | ⟨_, h⟩)
        · exact absurd h ha
        · exact absurd h hself
        · exact .inl h
    · exact iff_of_true (.inr (.inl ⟨hx, hy⟩)) (.inl (.inl ⟨hfirst hx, hlater hy⟩))
    · -- The second one is in the first part, so it comes first.
      have hx' : x ∉ f a := fun h => hne hx (hfirst h)
      have hy' : y ∉ rest.flatMap f := fun h => hne h (hfirst hy)
      refine iff_of_false ?_ ?_
      · rintro (h | ⟨h, _⟩ | h)
        · exact hx' h.mem_left
        · exact hx' h
        · exact hy' h.mem_right
      · rw [hfirst hy]
        rintro ((⟨h, _⟩ | h) | ⟨h, _⟩)
        · exact hne hx h
        · exact ha h.mem_right
        · exact hne hx h
    · -- Both are in later parts.
      have hx' : x ∉ f a := fun h => hne hx (hfirst h)
      have hgx := hne hx
      have htail := ih hrest (fun c hc => hg c (List.mem_cons_of_mem a hc)) hx hy
      constructor
      · rintro (h | ⟨h, _⟩ | h)
        · exact absurd h.mem_left hx'
        · exact absurd h hx'
        · exact (htail.1 h).imp_left .inr
      · rintro ((⟨h, _⟩ | h) | h)
        · exact absurd h hgx
        · exact .inr (.inr (htail.2 (.inl h)))
        · exact .inr (.inr (htail.2 (.inr h)))

end Precedes

namespace Snapshot.Tree

variable {t : Tree} {r p q : Path} {level paths : List Path} {n : ℕ}

/-! ### Levels -/

/-- The directories that a visit goes through in one step, recorded or implied: first its root, then
those that the directories before hold. -/
def levelAt (t : Tree) (root : Path) : ℕ → List Path
  | 0 => [root]
  | n + 1 => t.nextLevel (t.levelAt root n)

/-- What the directories of a level hold is all that is known at the next depth. -/
theorem mem_held_levelAt :
    p ∈ t.held (t.levelAt r n) ↔
      t.Knows p ∧ p.Within r ∧ p.names.length = r.names.length + n + 1 := by
  rw [mem_held]
  induction n generalizing p with
  | zero =>
    rw [levelAt, List.mem_singleton]
    constructor
    · rintro ⟨rfl, hroot, hk⟩
      exact ⟨hk, Path.within_parent p, (Path.length_parent_add_one hroot).symm⟩
    · rintro ⟨hk, hw, hlength⟩
      have hroot : p ≠ .root := fun he => by simp [he] at hlength
      have hparent := Path.length_parent_add_one hroot
      have hne : p ≠ r := fun he => by simp [he] at hlength
      obtain ⟨_, hpw⟩ := (Path.within_iff.1 hw).resolve_left hne
      exact ⟨hpw.eq_of_length (by omega), hroot, hk⟩
  | succ n ih =>
    rw [levelAt, nextLevel, List.mem_filter, mem_held, ih]
    constructor
    · rintro ⟨⟨⟨_, hpw, hlength⟩, _⟩, hroot, hk⟩
      have hparent := Path.length_parent_add_one hroot
      exact ⟨hk, (Path.within_parent p).trans hpw, by omega⟩
    · rintro ⟨hk, hw, hlength⟩
      have hroot : p ≠ .root := fun he => by
        rw [he, Path.names_root, List.length_nil] at hlength
        omega
      have hparent := Path.length_parent_add_one hroot
      have hne : p ≠ r := fun he => by
        rw [he] at hlength
        omega
      have hparent_ne : p ≠ p.parent := fun he => by
        rw [← he] at hparent
        omega
      obtain ⟨_, hpw⟩ := (Path.within_iff.1 hw).resolve_left hne
      -- The parent holds something, so it is a directory.
      have hmay := mayHold_of_known hk (Path.within_parent p) hparent_ne
      exact ⟨⟨⟨hk.within (Path.within_parent p), hpw, by omega⟩, hmay⟩, hroot, hk⟩

theorem nodup_levelAt (t : Tree) (r : Path) (n : ℕ) : (t.levelAt r n).Nodup := by
  induction n with
  | zero => exact List.nodup_singleton r
  | succ n ih => exact (nodup_held ih).filter _

/-! ### All paths of a visit -/

/-- What a visit passes by, recorded or not, in order. -/
def inLevels (t : Tree) (root : Path) : List Path :=
  root :: (List.range t.depth).flatMap fun n => t.held (t.levelAt root n)

theorem mem_inLevels (hk : t.Knows r) : p ∈ t.inLevels r ↔ t.Knows p ∧ p.Within r := by
  simp only [inLevels, List.mem_cons, List.mem_flatMap, List.mem_range, mem_held_levelAt]
  constructor
  · rintro (rfl | ⟨n, _, hp, hw, _⟩)
    · exact ⟨hk, .refl p⟩
    · exact ⟨hp, hw⟩
  · rintro ⟨hp, hw⟩
    by_cases hne : p = r
    · exact .inl hne
    · have hlt := hw.length_lt hne
      have hdepth := le_depth hp
      exact .inr ⟨p.names.length - r.names.length - 1, by omega, hp, hw, by omega⟩

theorem pairwise_inLevels (t : Tree) (r : Path) :
    (t.inLevels r).Pairwise fun p q => p.names.length ≤ q.names.length := by
  refine List.pairwise_cons.2 ⟨fun p hp => ?_, List.pairwise_flatMap.2 ⟨fun n _ => ?_, ?_⟩⟩
  · obtain ⟨n, _, hp⟩ := List.mem_flatMap.1 hp
    have hlength := (mem_held_levelAt.1 hp).2.2
    omega
  · refine List.pairwise_of_forall_mem_list fun p hp q hq => ?_
    rw [(mem_held_levelAt.1 hp).2.2, (mem_held_levelAt.1 hq).2.2]
  · refine List.pairwise_lt_range.imp fun hlt p hp q hq => ?_
    rw [(mem_held_levelAt.1 hp).2.2, (mem_held_levelAt.1 hq).2.2]
    omega

theorem nodup_inLevels (t : Tree) (r : Path) : (t.inLevels r).Nodup := by
  refine List.nodup_cons.2 ⟨fun hr => ?_, List.nodup_flatMap.2 ⟨fun n _ => ?_, ?_⟩⟩
  · obtain ⟨n, _, hr⟩ := List.mem_flatMap.1 hr
    have hlength := (mem_held_levelAt.1 hr).2.2
    omega
  · exact nodup_held (t.nodup_levelAt r n)
  · refine List.nodup_range.imp fun hne p hp hq => hne ?_
    have hlength := (mem_held_levelAt.1 hp).2.2
    rw [(mem_held_levelAt.1 hq).2.2] at hlength
    omega

/-- Paths at one depth stand as what the level before them holds. -/
theorem precedes_inLevels_iff (hp : p ∈ t.held (t.levelAt r n)) (hq : q ∈ t.held (t.levelAt r n)) :
    Precedes (t.inLevels r) p q ↔ Precedes (t.held (t.levelAt r n)) p q := by
  obtain ⟨hkp, _, hlp⟩ := mem_held_levelAt.1 hp
  obtain ⟨_, _, hlq⟩ := mem_held_levelAt.1 hq
  have hdepth := le_depth hkp
  have hn : n ∈ List.range t.depth := List.mem_range.2 (by omega)
  have hpr : p ≠ r := fun he => by
    rw [he] at hlp
    omega
  have hpart : ∀ k ∈ List.range t.depth, ∀ x ∈ t.held (t.levelAt r k),
      x.names.length - r.names.length - 1 = k := by
    intro k _ x hx
    have hlength := (mem_held_levelAt.1 hx).2.2
    omega
  rw [inLevels, precedes_cons_iff, precedes_flatMap_iff List.nodup_range hpart
    (List.mem_flatMap.2 ⟨n, hn, hp⟩) (List.mem_flatMap.2 ⟨n, hn, hq⟩)]
  have hgp : p.names.length - r.names.length - 1 = n := by omega
  have hgq : q.names.length - r.names.length - 1 = n := by omega
  have hself := not_precedes_self (List.nodup_range (n := t.depth)) n
  simp [hgp, hgq, hpr, hself]

/-! ### Parents and siblings -/

/-- Some paths keep the order of a level: those with different parents stand as their parents do in
the level, and those with one parent stand as they do in its list. -/
structure Keeps (t : Tree) (level paths : List Path) : Prop where
  parents : ∀ {p q}, p ∈ paths → q ∈ paths → p.parent ≠ q.parent →
    (Precedes paths p q ↔ Precedes level p.parent q.parent)
  siblings : ∀ {p q}, p ∈ paths → q ∈ paths → p.parent = q.parent →
    (Precedes paths p q ↔ Precedes (t.index.childrenOf p.parent) p q)

theorem keeps_held (hl : level.Nodup) : t.Keeps level (t.held level) := by
  have hpart : ∀ d ∈ level, ∀ p ∈ t.index.childrenOf d, p.parent = d :=
    fun d _ p hp => (mem_childrenOf.1 hp).2.1
  constructor
  · intro p q hp hq hne
    rw [held, precedes_flatMap_iff hl hpart hp hq]
    simp [hne]
  · intro p q hp hq heq
    have hself := not_precedes_self hl q.parent
    rw [held, precedes_flatMap_iff hl hpart hp hq]
    simp [heq, hself]

theorem Keeps.filter (h : t.Keeps level paths) (f : Path → Bool) : t.Keeps level (paths.filter f) := by
  constructor
  · intro p q hp hq hne
    obtain ⟨hp, hfp⟩ := List.mem_filter.1 hp
    obtain ⟨hq, hfq⟩ := List.mem_filter.1 hq
    rw [precedes_filter_iff hfp hfq, h.parents hp hq hne]
  · intro p q hp hq heq
    obtain ⟨hp, hfp⟩ := List.mem_filter.1 hp
    obtain ⟨hq, hfq⟩ := List.mem_filter.1 hq
    rw [precedes_filter_iff hfp hfq, h.siblings hp hq heq]

/-! ### The visits -/

/-- From a level on, the visits are those of what the levels hold. -/
theorem visitsBelow_eq (t : Tree) (r : Path) (d n : ℕ) :
    t.visitsBelow d (t.levelAt r n) =
      ((List.range' n d).flatMap fun k => t.held (t.levelAt r k)).filterMap t.visit? := by
  induction d generalizing n with
  | zero => rfl
  | succ d ih =>
    rw [List.range'_succ, List.flatMap_cons, List.filterMap_append, ← ih]
    rw [visitsBelow]
    by_cases hempty : (t.held (t.levelAt r n)).isEmpty
    · -- Nothing is held, so the next level is empty and gives nothing either.
      have hheld := List.isEmpty_iff.1 hempty
      have hnext : t.levelAt r (n + 1) = [] := by rw [levelAt, nextLevel, hheld, List.filter_nil]
      have hlater : t.visitsBelow d [] = [] := by
        cases d with
        | zero => rfl
        | succ d => simp [visitsBelow, held]
      rw [if_pos hempty, hheld, hnext, hlater, List.filterMap_nil, List.append_nil]
    · rw [if_neg hempty]
      rfl

theorem visits_eq {given : String} (hk : t.Knows (.ofText given)) :
    (t.visit 1 given).visits = (t.inLevels (.ofText given)).filterMap t.visit? := by
  have hfirst : (t.inLevels (.ofText given)).filterMap t.visit? =
      (t.visit? (.ofText given)).toList ++ ((List.range t.depth).flatMap fun n =>
        t.held (t.levelAt (.ofText given) n)).filterMap t.visit? := by
    rw [inLevels, List.filterMap_cons]
    cases t.visit? (.ofText given) <;> rfl
  rw [hfirst]
  simp only [visit, contains_iff.2 hk, Bool.not_true, Bool.false_eq_true, if_false]
  split
  · rename_i hleaf
    -- Nothing is known below a file or a link.
    have hnone : ((List.range t.depth).flatMap fun n => t.held (t.levelAt (.ofText given) n)) = [] := by
      refine List.eq_nil_iff_forall_not_mem.2 fun p hp => ?_
      obtain ⟨n, _, hp⟩ := List.mem_flatMap.1 hp
      obtain ⟨hkp, hw, hlength⟩ := mem_held_levelAt.1 hp
      have hne : p ≠ .ofText given := fun he => by
        rw [he] at hlength
        omega
      rw [mayHold_of_known hkp hw hne] at hleaf
      cases hleaf
    rw [Traversal.visits_ofVisits, hnone, List.filterMap_nil, List.append_nil]
  · rw [if_neg (by decide), Traversal.visits_ofVisits, List.range_eq_range']
    exact congrArg _ (t.visitsBelow_eq (.ofText given) t.depth 0)

/-- Whether a path is recorded. -/
def records (t : Tree) (p : Path) : Bool := t.nodes.has p

/-- The recorded paths among some paths are what is visited. -/
theorem map_path_filterMap (paths : List Path) :
    (paths.filterMap t.visit?).map (·.path) = (paths.filter t.records).map Path.text := by
  induction paths with
  | nil => rfl
  | cons p rest ih =>
    cases hp : t.nodes.find? p with
    | none =>
      have hv : t.visit? p = none := by rw [visit?, hp, Option.map_none]
      have hh : ¬ t.records p = true := by simp [records, Catalog.has, hp]
      rw [List.filterMap_cons_none hv, List.filter_cons_of_neg hh, ih]
    | some node =>
      have hv : t.visit? p = some ⟨p.text, node⟩ := by rw [visit?, hp, Option.map_some]
      have hh : t.records p = true := by simp [records, Catalog.has, hp]
      rw [List.filterMap_cons_some hv, List.filter_cons_of_pos hh, List.map_cons, List.map_cons, ih]

/-- The recorded paths at or below a root, each once and in the order of the levels: shorter ones
first, so an ancestor before what lies below it, and those at one depth as the level before them
says.  Each level but the first holds the directories at its depth, recorded or implied, and keeps
the order of the level before it. -/
structure InLevelOrder (t : Tree) (root : Path) (paths : List Path) : Prop where
  mem_iff : ∀ {p}, p ∈ paths ↔ t.records p = true ∧ p.Within root
  nodup : paths.Nodup
  depth : paths.Pairwise fun p q => p.names.length ≤ q.names.length
  ancestors : ∀ {p q}, p ∈ paths → q ∈ paths → q.Within p → q ≠ p → Precedes paths p q
  parents : ∀ {n p q}, p ∈ paths → q ∈ paths → p.names.length = root.names.length + n + 1 →
    q.names.length = root.names.length + n + 1 → p.parent ≠ q.parent →
      (Precedes paths p q ↔ Precedes (t.levelAt root n) p.parent q.parent)
  siblings : ∀ {p q}, p ∈ paths → q ∈ paths → p ≠ root → q ≠ root → p.parent = q.parent →
    (Precedes paths p q ↔ Precedes (t.index.childrenOf p.parent) p q)
  mem_level : ∀ {n p}, p ∈ t.levelAt root (n + 1) ↔ t.Knows p ∧ p.Within root ∧
    p.names.length = root.names.length + n + 1 ∧ t.mayHold p = true
  levels : ∀ n, t.Keeps (t.levelAt root n) (t.levelAt root (n + 1))

theorem knows_of_records (h : t.records p = true) : t.Knows p :=
  ⟨p, (Catalog.find?_isSome_iff p t.nodes).1 h, .refl p⟩

/-- The paths that a visit reports, in order. -/
def reported (t : Tree) (root : Path) : List Path := (t.inLevels root).filter t.records

theorem mem_reported (hk : t.Knows r) : p ∈ t.reported r ↔ t.records p = true ∧ p.Within r := by
  rw [reported, List.mem_filter, mem_inLevels hk]
  exact ⟨fun h => ⟨h.2, h.1.2⟩, fun h => ⟨⟨knows_of_records h.1, h.2⟩, h.1⟩⟩

theorem pairwise_reported (t : Tree) (r : Path) :
    (t.reported r).Pairwise fun p q => p.names.length ≤ q.names.length :=
  (t.pairwise_inLevels r).sublist List.filter_sublist

theorem mem_held_of_reported (hp : p ∈ t.reported r) (hw : p.Within r)
    (hlength : p.names.length = r.names.length + n + 1) : p ∈ t.held (t.levelAt r n) :=
  mem_held_levelAt.2 ⟨knows_of_records (List.mem_filter.1 hp).2, hw, hlength⟩

/-- Reported paths at one depth stand as what the level before them holds. -/
theorem precedes_reported_iff (hp : p ∈ t.reported r) (hq : q ∈ t.reported r)
    (hpn : p ∈ t.held (t.levelAt r n)) (hqn : q ∈ t.held (t.levelAt r n)) :
    Precedes (t.reported r) p q ↔ Precedes (t.held (t.levelAt r n)) p q := by
  rw [reported, precedes_filter_iff (List.mem_filter.1 hp).2 (List.mem_filter.1 hq).2,
    precedes_inLevels_iff hpn hqn]

/-- Paths below a root that have one parent are equally long: none of them is the one path that is
its own parent. -/
theorem length_eq_of_siblings (hp : p.Within r) (hq : q.Within r) (hpr : p ≠ r) (hqr : q ≠ r)
    (h : p.parent = q.parent) : p.names.length = q.names.length := by
  have hlp := hp.length_lt hpr
  have hlq := hq.length_lt hqr
  have hproot : p ≠ .root := fun he => by simp [he] at hlp
  have hqroot : q ≠ .root := fun he => by simp [he] at hlq
  rw [← Path.length_parent_add_one hproot, ← Path.length_parent_add_one hqroot, h]

theorem inLevelOrder_reported (hk : t.Knows r) : t.InLevelOrder r (t.reported r) where
  mem_iff := mem_reported hk
  nodup := (t.nodup_inLevels r).filter _
  depth := t.pairwise_reported r
  ancestors := by
    intro p q hp hq hw hne
    refine (precedes_or_precedes hp hq hne.symm).resolve_right fun h => ?_
    have hle := List.pairwise_iff_forall_sublist.1 (t.pairwise_reported r) h
    have hlt := hw.length_lt hne
    omega
  parents := by
    intro n p q hp hq hlp hlq hne
    have hpn := mem_held_of_reported hp ((mem_reported hk).1 hp).2 hlp
    have hqn := mem_held_of_reported hq ((mem_reported hk).1 hq).2 hlq
    rw [precedes_reported_iff hp hq hpn hqn,
      (keeps_held (t.nodup_levelAt r n)).parents hpn hqn hne]
  siblings := by
    intro p q hp hq hpr hqr heq
    have hpw := ((mem_reported hk).1 hp).2
    have hqw := ((mem_reported hk).1 hq).2
    have hlength := length_eq_of_siblings hpw hqw hpr hqr heq
    have hlt := hpw.length_lt hpr
    obtain ⟨n, hn⟩ : ∃ n, p.names.length = r.names.length + n + 1 :=
      ⟨p.names.length - r.names.length - 1, by omega⟩
    have hpn := mem_held_of_reported hp hpw hn
    have hqn := mem_held_of_reported hq hqw (hlength ▸ hn)
    rw [precedes_reported_iff hp hq hpn hqn,
      (keeps_held (t.nodup_levelAt r n)).siblings hpn hqn heq]
  mem_level := by
    intro n p
    rw [levelAt, nextLevel, List.mem_filter, mem_held_levelAt]
    tauto
  levels := fun n => (keeps_held (t.nodup_levelAt r n)).filter t.mayHold

/-- **Level order.**  On one worker a visit of a known path goes through, and it reports the recorded
paths at or below its root in the order of the levels. -/
theorem visit_inLevelOrder (ht : t.nodes.Loadable) {given : String} (hk : t.Knows (.ofText given)) :
    (t.visit 1 given).fault = none ∧
      ∃ paths, (callbacks (t.visit 1 given).visits).map (·.path) = paths.map Path.text ∧
        t.InLevelOrder (.ofText given) paths := by
  obtain ⟨hfault, hdelivers⟩ := visit_of_knows (le_refl 1) hk
  refine ⟨hfault, _, ?_, inLevelOrder_reported hk⟩
  rw [callbacks_eq ht hdelivers, visits_eq hk, map_path_filterMap, reported]

/-- Two files, in a directory that is only implied and in a recorded one, which is recorded last. -/
def shelfNodes : Nodes :=
  [ (.ofText "/s/b/2", ⟨.file, .text "2", .null, .null, 5, 1⟩),
    (.ofText "/s/a/1", ⟨.file, .text "1", .null, .null, 7, 1⟩),
    (.ofText "/s/a", ⟨.directory, .text "a", .null, .null, 0, 0⟩) ]

/-- The tree of these nodes. -/
def shelf : Tree := ⟨shelfNodes, .ofPaths shelfNodes.keys, rfl, by decide +kernel⟩

theorem visit_inLevelOrder_shelf :
    shelf.nodes.Loadable ∧ shelf.Knows (.ofText "/s") ∧
      ∃ paths, (callbacks (shelf.visit 1 "/s").visits).map (·.path) = paths.map Path.text ∧
        Precedes paths (.ofText "/s/a") (.ofText "/s/b/2") ∧
        Precedes paths (.ofText "/s/b/2") (.ofText "/s/a/1") := by
  have hl : shelf.nodes.Loadable := by
    refine ⟨by decide +kernel, fun {p node} hp => ?_⟩
    have hc : ∀ e ∈ shelfNodes, e.2.kind.isCounted = true := by simp [shelfNodes, NodeKind.isCounted]
    exact hc _ (Catalog.mem_of_find? hp)
  have hk : shelf.Knows (.ofText "/s") := ⟨.ofText "/s/a", by decide +kernel, by decide +kernel⟩
  obtain ⟨_, paths, hpaths, horder⟩ := visit_inLevelOrder hl hk
  have ha : Path.ofText "/s/a" ∈ paths := horder.mem_iff.2 (by decide +kernel)
  have h2 : Path.ofText "/s/b/2" ∈ paths := horder.mem_iff.2 (by decide +kernel)
  have h1 : Path.ofText "/s/a/1" ∈ paths := horder.mem_iff.2 (by decide +kernel)
  refine ⟨hl, hk, paths, hpaths, ?_, ?_⟩
  · refine (precedes_or_precedes ha h2 (by decide +kernel)).resolve_right fun h => ?_
    have hle := List.pairwise_iff_forall_sublist.1 horder.depth h
    revert hle
    decide +kernel
  · -- The implied directory comes before the recorded one.
    refine (@horder.parents 1 _ _ h2 h1 (by decide +kernel) (by decide +kernel) (by decide +kernel)).2 ?_
    have hlevel : shelf.levelAt (.ofText "/s") 1 = [.ofText "/s/b", .ofText "/s/a"] := by
      decide +kernel
    have hb : (Path.ofText "/s/b/2").parent = .ofText "/s/b" := by decide +kernel
    have hc : (Path.ofText "/s/a/1").parent = .ofText "/s/a" := by decide +kernel
    rw [hlevel, hb, hc]
    exact List.Sublist.refl _

end Snapshot.Tree

end UsageLedger
