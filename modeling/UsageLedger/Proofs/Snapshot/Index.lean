/-
UsageLedger/Proofs/Snapshot/Index.lean

The index of a snapshot holds exactly what its paths record or imply.

A path is *known* to some recorded paths when one of them lies within it.  The
climb from a recorded path stops at the first path that is listed already, so
what is listed must stay closed under parents; during the climb the closure is
open at one place, the directory to be listed next.  `Index.Listed` is read off
`childrenOf`, and `mem_childrenOf_ofPaths` is the main statement.
-/
import UsageLedger.Proofs.Ancestor
import UsageLedger.Snapshot.Tree

namespace UsageLedger.Snapshot

/-- A path that is recorded or lies on the way to a recorded one. -/
def Known (paths : List Path) (q : Path) : Prop := ∃ p ∈ paths, p.Within q

instance (paths : List Path) (q : Path) : Decidable (Known paths q) :=
  inferInstanceAs (Decidable (∃ p ∈ paths, p.Within q))

theorem Known.within {paths : List Path} {p q : Path} (hp : Known paths p) (h : p.Within q) :
    Known paths q := by
  obtain ⟨r, hr, hw⟩ := hp
  exact ⟨r, hr, hw.trans h⟩

namespace Index

variable {index : Index} {p q d : Path}

/-! ### Sound indices -/

/-- Each list of an index holds children of its directory, each once, and at least one. -/
structure Sound (index : Index) : Prop where
  child : ∀ {d q}, q ∈ index.childrenOf d → q ≠ .root ∧ q.parent = d
  nodup : ∀ d, (index.childrenOf d).Nodup
  ne_nil : ∀ {d held}, index.find? d = some held → held ≠ []

/-- A path stands in the list of its parent. -/
def Listed (index : Index) (q : Path) : Prop := q ∈ index.childrenOf q.parent

theorem lists_iff : index.lists q = true ↔ index.Listed q := by
  simp [lists, Listed]

theorem Sound.mem_childrenOf (h : index.Sound) :
    q ∈ index.childrenOf d ↔ index.Listed q ∧ q.parent = d := by
  constructor
  · intro hq
    obtain rfl := (h.child hq).2
    exact ⟨hq, rfl⟩
  · rintro ⟨hq, rfl⟩
    exact hq

theorem sound_nil : Sound [] where
  child := by simp [childrenOf, Catalog.find?]
  nodup := by simp [childrenOf, Catalog.find?]
  ne_nil := by simp [Catalog.find?]

/-! ### One more child -/

/-- The index with a path listed in its parent. -/
def list (index : Index) (p : Path) : Index :=
  index.put p.parent (index.childrenOf p.parent ++ [p])

theorem childrenOf_list (index : Index) (p d : Path) :
    (index.list p).childrenOf d =
      if p.parent = d then index.childrenOf p.parent ++ [p] else index.childrenOf d := by
  unfold childrenOf list
  rw [Catalog.find?_put]
  split <;> rfl

theorem listed_list : (index.list p).Listed q ↔ index.Listed q ∨ q = p := by
  unfold Listed
  rw [childrenOf_list]
  split
  · rename_i h
    rw [h, List.mem_append, List.mem_singleton]
  · rename_i h
    have hne : q ≠ p := fun he => h (by rw [he])
    simp [hne]

theorem Sound.list (h : index.Sound) (hp : p ≠ .root) (hl : ¬ index.Listed p) :
    (index.list p).Sound where
  child := by
    intro d q hq
    rw [childrenOf_list] at hq
    split at hq
    · rename_i hd
      rcases List.mem_append.1 hq with hq | hq
      · exact hd ▸ h.child hq
      · exact List.mem_singleton.1 hq ▸ ⟨hp, hd⟩
    · exact h.child hq
  nodup := by
    intro d
    rw [childrenOf_list]
    split
    · refine List.nodup_append.2 ⟨h.nodup _, by simp, ?_⟩
      rintro a ha b hb rfl
      exact hl (List.mem_singleton.1 hb ▸ ha)
    · exact h.nodup d
  ne_nil := by
    intro d held hd
    rw [Index.list, Catalog.find?_put] at hd
    split at hd
    · cases hd
      simp
    · exact h.ne_nil hd

/-! ### The climb -/

theorem Sound.climb (h : index.Sound) (p : Path) : (index.climb p).Sound := by
  fun_induction Index.climb index p with
  | case1 => exact h
  | case2 index p hp ih =>
    simp only [Bool.or_eq_true, decide_eq_true_eq, lists_iff, not_or] at hp
    exact ih (h.list hp.1 hp.2)

/-- The parent of what is listed is the root or listed, but for what has `p` as its parent. -/
def ClosedBut (index : Index) (p : Path) : Prop :=
  ∀ q, index.Listed q → q.parent ≠ .root → q.parent ≠ p → index.Listed q.parent

/-- The parent of what is listed is the root or listed. -/
def Closed (index : Index) : Prop := index.ClosedBut .root

theorem Closed.closedBut (h : index.Closed) (p : Path) : index.ClosedBut p :=
  fun q hq hr _ => h q hq hr hr

/-- In a closed index all that a listed path lies within is listed. -/
theorem Closed.listed_of_within (h : index.Closed) (hp : index.Listed p) (hpq : p.Within q)
    (hq : q ≠ .root) : index.Listed q := by
  -- Induction on the number of names that `p` has more than `q`.
  obtain ⟨n, hn⟩ := Nat.exists_eq_add_of_le hpq.length_le
  induction n generalizing p with
  | zero => exact hpq.eq_of_length hn.le ▸ hp
  | succ n ih =>
    have hne : p ≠ q := fun he => by simp [he] at hn
    obtain ⟨hr, hw⟩ := (Path.within_iff.1 hpq).resolve_left hne
    have hl := Path.length_parent_add_one hr
    have hpr : p.parent ≠ .root := fun he => by
      rw [he] at hw
      exact hq (hw.eq_of_length (by simp)).symm
    exact ih (h p hp hpr hpr) hw (by omega)

/-- The climb lists, beside what is listed, a path and all above it but the root. -/
theorem listed_climb (hs : index.Sound) (hc : index.ClosedBut p) :
    (index.climb p).Listed q ↔ index.Listed q ∨ q ≠ .root ∧ p.Within q := by
  fun_induction Index.climb index p with
  | case1 index p hp =>
    simp only [Bool.or_eq_true, decide_eq_true_eq, lists_iff] at hp
    refine ⟨.inl, ?_⟩
    rintro (hq | ⟨hq, hw⟩)
    · exact hq
    · rcases hp with rfl | hp
      · exact absurd (hw.eq_of_length (by simp)).symm hq
      · -- `p` is listed, so nothing stands open at it.
        have hclosed : index.Closed := fun r hr hpr _ => by
          by_cases he : r.parent = p
          · exact he ▸ hp
          · exact hc r hr hpr he
        exact hclosed.listed_of_within hp hw hq
  | case2 index p hp ih =>
    simp only [Bool.or_eq_true, decide_eq_true_eq, lists_iff, not_or] at hp
    -- Listing `p` closes the index at `p` and opens it at the parent of `p`.
    have hclosed : (index.list p).ClosedBut p.parent := by
      intro r hr hpr hne
      rcases listed_list.1 hr with hr | rfl
      · refine listed_list.2 ?_
        by_cases he : r.parent = p
        · exact .inr he
        · exact .inl (hc r hr hpr he)
      · exact absurd rfl hne
    refine (ih (hs.list hp.1 hp.2) hclosed).trans ?_
    show (index.list p).Listed q ∨ _ ↔ _
    rw [listed_list, Path.within_iff (p := p)]
    constructor
    · rintro ((hq | rfl) | ⟨hq, hw⟩)
      · exact .inl hq
      · exact .inr ⟨hp.1, .inl rfl⟩
      · exact .inr ⟨hq, .inr ⟨hp.1, hw⟩⟩
    · rintro (hq | ⟨hq, rfl | ⟨_, hw⟩⟩)
      · exact .inl (.inl hq)
      · exact .inl (.inr rfl)
      · exact .inr ⟨hq, hw⟩

theorem Closed.climb (hs : index.Sound) (hc : index.Closed) (p : Path) : (index.climb p).Closed := by
  intro q hq hr _
  rw [listed_climb hs (hc.closedBut p)] at hq ⊢
  rcases hq with hq | ⟨_, hw⟩
  · exact .inl (hc q hq hr hr)
  · exact .inr ⟨hr, hw.trans (Path.within_parent q)⟩

/-! ### The whole index -/

theorem Sound.foldl_climb (h : index.Sound) (paths : List Path) :
    Sound (paths.foldl Index.climb index) := by
  induction paths generalizing index with
  | nil => exact h
  | cons p rest ih => exact ih (h.climb p)

theorem sound_ofPaths (paths : List Path) : (ofPaths paths).Sound := sound_nil.foldl_climb paths

theorem nodup_keys_climb (h : index.keys.Nodup) (p : Path) : (index.climb p).keys.Nodup := by
  fun_induction Index.climb index p with
  | case1 => exact h
  | case2 index p hp ih => exact ih (Catalog.nodup_keys_put _ _ h)

theorem nodup_keys_ofPaths (paths : List Path) : (ofPaths paths).keys.Nodup := by
  have hfold {index : Index} (h : index.keys.Nodup) : (paths.foldl climb index).keys.Nodup := by
    induction paths generalizing index with
    | nil => exact h
    | cons p rest ih => exact ih (nodup_keys_climb h p)
  exact hfold .nil

/-- What is listed after some paths: the paths, and what implies them. -/
theorem listed_foldl_climb {paths : List Path} (hs : index.Sound) (hc : index.Closed) :
    Listed (paths.foldl climb index) q ↔ index.Listed q ∨ q ≠ .root ∧ Known paths q := by
  induction paths generalizing index with
  | nil => simp [Known]
  | cons p rest ih =>
    rw [List.foldl_cons, ih (hs.climb p) (hc.climb hs p), listed_climb hs (hc.closedBut p)]
    simp only [Known, List.mem_cons, exists_eq_or_imp]
    tauto

/-- A directory holds exactly the known paths whose parent it is. -/
theorem mem_childrenOf_ofPaths {paths : List Path} :
    q ∈ (ofPaths paths).childrenOf d ↔ q ≠ .root ∧ q.parent = d ∧ Known paths q := by
  have closed : Closed [] := fun q hq => absurd hq (by simp [Listed, childrenOf, Catalog.find?])
  have listed : (ofPaths paths).Listed q ↔ q ≠ .root ∧ Known paths q := by
    rw [ofPaths, listed_foldl_climb sound_nil closed]
    simp [Listed, childrenOf, Catalog.find?]
  rw [(sound_ofPaths paths).mem_childrenOf, listed]
  tauto

/-- A directory is in the index if and only if something is known below it. -/
theorem has_ofPaths_iff {paths : List Path} :
    (ofPaths paths).has d = true ↔ ∃ q, q ≠ .root ∧ q.parent = d ∧ Known paths q := by
  simp only [← mem_childrenOf_ofPaths, Catalog.has]
  constructor
  · intro h
    obtain ⟨held, hd⟩ := Option.isSome_iff_exists.1 h
    obtain ⟨q, hq⟩ := List.exists_mem_of_ne_nil held ((sound_ofPaths paths).ne_nil hd)
    exact ⟨q, by simpa [childrenOf, hd] using hq⟩
  · rintro ⟨q, hq⟩
    by_contra hd
    rw [Bool.not_eq_true, Option.isSome_eq_false_iff, Option.isNone_iff_eq_none] at hd
    simp [childrenOf, hd] at hq

end Index

end UsageLedger.Snapshot
