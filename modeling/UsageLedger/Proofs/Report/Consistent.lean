/-
UsageLedger/Proofs/Report/Consistent.lean

What is shared and what the callbacks have come to, always in agreement.
`Consistent` says that what a callback holds is what its key leads to now, however
long ago it looked, and that an entry shows what exactly the callbacks with its
key have counted so far.  `Owned` says that no entry was made for nothing.

Both are kept by every effect: `Consistent.effect`, `Owned.effect`.
-/
import UsageLedger.Proofs.Report.Attribution
import UsageLedger.Proofs.Report.Effect

namespace UsageLedger

variable {b : Borders}

/-! ### Sums over standings -/

/-- What the nodes of the standings that pass a test add to a figure. -/
def Figure.sumWhere (b : Borders) (f : Figure) (p : Standing → Bool) (l : List Standing) : ℤ :=
  (l.map fun x => if p x then f.share b x.visit.node else 0).sum

section

variable {f : Figure} {p : Standing → Bool} {l : List Standing} {n : ℕ} {x : Standing}

/-- A callback that goes on without passing or failing the test anew changes no sum. -/
theorem Figure.sumWhere_set_of_eq (hx : l[n]? = some x) (x' : Standing) (hv : x'.visit = x.visit)
    (hp : p x' = p x) :
    f.sumWhere b p (l.set n x') = f.sumWhere b p l := by
  have h := sum_map_set hx x' fun x => if p x then f.share b x.visit.node else 0
  rw [hv, hp] at h
  exact add_right_cancel h

/-- A callback that comes to pass the test adds the share of its node. -/
theorem Figure.sumWhere_set_of_new (hx : l[n]? = some x) (x' : Standing) (hv : x'.visit = x.visit)
    (hp : p x = false) (hp' : p x' = true) :
    f.sumWhere b p (l.set n x') = f.sumWhere b p l + f.share b x.visit.node := by
  have h := sum_map_set hx x' fun x => if p x then f.share b x.visit.node else 0
  rw [hv, hp, hp', if_pos rfl, if_neg Bool.false_ne_true, add_zero] at h
  exact h

theorem Figure.sumWhere_eq_zero (h : ∀ x ∈ l, p x = false) : f.sumWhere b p l = 0 := by
  unfold sumWhere
  refine List.sum_eq_zero fun a ha => ?_
  obtain ⟨x, hx, rfl⟩ := List.mem_map.1 ha
  simp [h x hx]

end

/-! ### What is shared and who holds it -/

/-- A callback has counted its node for a key of a table. -/
def Standing.countsFor (x : Standing) (role : Role) (key : String) : Bool :=
  x.visit.keyIn role = key && x.counted role

/-- What is shared agrees with the standings of the callbacks. -/
structure Consistent (s : Shared b) (l : List Standing) : Prop where
  nodup : ∀ role, (s.table role).keys.Nodup
  /-- No two keys lead to one place, within a table or across the tables. -/
  apart : ∀ {role role' key key' place}, s.lookUp role key = some place →
    s.lookUp role' key' = some place → role' = role ∧ key' = key
  /-- What was obtained for a key is what the key leads to now. -/
  held : ∀ {x}, x ∈ l → ∀ {role place}, x.held role = some place →
    s.lookUp role (x.visit.keyIn role) = some place
  holds : ∀ {x}, x ∈ l → ∀ {role}, x.counted role = true → (x.held role).isSome = true
  /-- An entry shows what its callbacks have counted so far. -/
  figure : ∀ {role key place}, s.lookUp role key = some place → ∃ u, s.usages[place]? = some u ∧
    ∀ f : Figure, u.figure f = f.sumWhere b (·.countsFor role key) l
  overall : ∀ f : Figure, s.overall.figure f = f.sumWhere b (·.countedOverall) l

namespace Consistent

variable {s : Shared b} {l : List Standing} {n : ℕ} {x : Standing}

theorem place_lt (h : Consistent s l) {role : Role} {key : String} {place : ℕ}
    (hp : s.lookUp role key = some place) : place < s.usages.length := by
  obtain ⟨u, hu, -⟩ := h.figure hp
  exact (List.getElem?_eq_some_iff.1 hu).1

/-- A new entry.  Nobody has counted for its key, for whoever counts holds a place. -/
theorem enter (h : Consistent s l) {role : Role} {key : String} (hm : s.lookUp role key = none) :
    Consistent (s.enter role key) l where
  nodup := by
    intro r
    show (if r = role then (s.table r).put key s.usages.length else s.table r).keys.Nodup
    split
    · exact Catalog.nodup_keys_put _ _ (h.nodup r)
    · exact h.nodup r
  apart := by
    intro r r' k k' place hp hp'
    rw [Shared.lookUp_enter] at hp hp'
    split at hp <;> split at hp'
    · rename_i hk hk'
      exact ⟨hk'.1.trans hk.1.symm, hk'.2.trans hk.2.symm⟩
    · -- Old places lie before the new one.
      cases hp
      exact absurd (h.place_lt hp') (Nat.lt_irrefl _)
    · cases hp'
      exact absurd (h.place_lt hp) (Nat.lt_irrefl _)
    · exact h.apart hp hp'
  held := by
    intro y hy r place hp
    have hl := h.held hy hp
    rw [Shared.lookUp_enter, if_neg]
    · exact hl
    -- Nobody holds a place for a key that is missing.
    · rintro ⟨rfl, rfl⟩
      rw [hm] at hl
      cases hl
  holds := h.holds
  figure := by
    intro r k place hp
    rw [Shared.lookUp_enter] at hp
    split at hp
    · rename_i hk
      obtain ⟨rfl, rfl⟩ := hk
      cases hp
      refine ⟨.zero b, by simp [Shared.enter], fun f => ?_⟩
      rw [Usage.figure_zero, Figure.sumWhere_eq_zero]
      intro y hy
      by_contra hc
      simp only [Standing.countsFor, Bool.not_eq_false, Bool.and_eq_true, decide_eq_true_eq] at hc
      obtain ⟨place, hplace⟩ := Option.isSome_iff_exists.1 (h.holds hy hc.2)
      have hl := h.held hy hplace
      rw [hc.1, hm] at hl
      cases hl
    · obtain ⟨u, hu, hf⟩ := h.figure hp
      refine ⟨u, ?_, hf⟩
      show (s.usages ++ [.zero b])[place]? = some u
      rw [List.getElem?_append_left (h.place_lt hp), hu]
  overall := h.overall

theorem held_set (h : Consistent s l) (x' : Standing)
    (hv : x'.visit = x.visit) (hh : ∀ {role place}, x'.held role = some place →
      s.lookUp role (x.visit.keyIn role) = some place)
    {y : Standing} (hy : y ∈ l.set n x') {role : Role} {place : ℕ} (hp : y.held role = some place) :
    s.lookUp role (y.visit.keyIn role) = some place := by
  rcases List.mem_or_eq_of_mem_set hy with hy | rfl
  · exact h.held hy hp
  · rw [hv]
    exact hh hp

theorem holds_set (h : Consistent s l) (x' : Standing)
    (hh : ∀ {role}, x'.counted role = true → (x'.held role).isSome = true)
    {y : Standing} (hy : y ∈ l.set n x') {role : Role} (hc : y.counted role = true) :
    (y.held role).isSome = true := by
  rcases List.mem_or_eq_of_mem_set hy with hy | rfl
  · exact h.holds hy hc
  · exact hh hc

/-- An entry shows the same as long as nobody comes to count for it. -/
theorem figure_set (h : Consistent s l) (hx : l[n]? = some x) (x' : Standing)
    (hv : x'.visit = x.visit) (hc : x'.counted = x.counted) {role : Role} {key : String}
    {place : ℕ} (hp : s.lookUp role key = some place) : ∃ u, s.usages[place]? = some u ∧
      ∀ f : Figure, u.figure f = f.sumWhere b (·.countsFor role key) (l.set n x') := by
  obtain ⟨u, hu, hf⟩ := h.figure hp
  refine ⟨u, hu, fun f => ?_⟩
  have hp : x'.countsFor role key = x.countsFor role key := by
    unfold Standing.countsFor
    rw [hv, hc]
  rw [hf, Figure.sumWhere_set_of_eq hx x' hv hp]

/-- A callback obtains the place that its key leads to. -/
theorem hold (h : Consistent s l) (hx : l[n]? = some x) {role : Role} {place : ℕ}
    (hp : s.lookUp role (x.visit.keyIn role) = some place) :
    Consistent s (l.set n (x.hold role place)) where
  nodup := h.nodup
  apart := h.apart
  held := by
    apply h.held_set (x.hold role place) rfl
    intro r place' hh
    simp only [Standing.hold] at hh
    split at hh
    · rename_i hr
      subst hr
      cases hh
      exact hp
    · exact h.held (List.mem_of_getElem? hx) hh
  holds := by
    apply h.holds_set (x.hold role place)
    intro r hc
    simp only [Standing.hold]
    split
    · rfl
    · exact h.holds (List.mem_of_getElem? hx) hc
  figure := h.figure_set hx (x.hold role place) rfl rfl
  overall := by
    intro f
    rw [h.overall, Figure.sumWhere_set_of_eq hx (x.hold role place) rfl rfl]

theorem countOverall (h : Consistent s l) (hx : l[n]? = some x) (hn : x.countedOverall = false) :
    Consistent (s.countOverall x.visit.node) (l.set n x.countOverall) where
  nodup := h.nodup
  apart := h.apart
  held := h.held_set x.countOverall rfl (h.held (List.mem_of_getElem? hx))
  holds := h.holds_set x.countOverall (h.holds (List.mem_of_getElem? hx))
  figure := h.figure_set hx x.countOverall rfl rfl
  overall := by
    intro f
    show (s.overall.counted x.visit.node).figure f = _
    rw [Usage.figure_counted, h.overall, Figure.sumWhere_set_of_new hx x.countOverall rfl hn rfl]

/-- A callback counts at the place that it holds.  Only the entry of its own key is there. -/
theorem countAt (h : Consistent s l) (hx : l[n]? = some x) {role : Role} {place : ℕ}
    (hp : x.held role = some place) (hn : x.counted role = false) :
    Consistent (s.countAt place x.visit.node) (l.set n (x.count role)) where
  nodup := h.nodup
  apart := h.apart
  held := h.held_set (x.count role) rfl (h.held (List.mem_of_getElem? hx))
  holds := by
    apply h.holds_set (x.count role)
    intro r hc
    simp only [Standing.count, Bool.or_eq_true, decide_eq_true_eq] at hc
    rcases hc with rfl | hc
    · exact Option.isSome_of_eq_some hp
    · exact h.holds (List.mem_of_getElem? hx) hc
  figure := by
    intro r k place' hl
    obtain ⟨u, hu, hf⟩ := h.figure hl
    have hown : s.lookUp role (x.visit.keyIn role) = some place :=
      h.held (List.mem_of_getElem? hx) hp
    show ∃ u, (s.usages.modify place (Usage.counted x.visit.node))[place']? = some u ∧ _
    rw [List.getElem?_modify, hu]
    by_cases he : place = place'
    · subst he
      obtain ⟨rfl, rfl⟩ := h.apart hown hl
      refine ⟨u.counted x.visit.node, by simp, fun f => ?_⟩
      rw [Usage.figure_counted, hf, Figure.sumWhere_set_of_new hx (x.count r) rfl]
      · simp [Standing.countsFor, hn]
      · simp [Standing.countsFor, Standing.count]
    · refine ⟨u, by simp [he], fun f => ?_⟩
      rw [hf, Figure.sumWhere_set_of_eq hx (x.count role) rfl]
      -- Another place, so another key or another table.
      have hk : ¬ (r = role ∧ x.visit.keyIn r = k) := by
        rintro ⟨rfl, rfl⟩
        exact he (Option.some.inj (hown.symm.trans hl))
      by_cases hr : r = role
      · have hkey : x.visit.keyIn r ≠ k := fun hkey => hk ⟨hr, hkey⟩
        simp [Standing.countsFor, Standing.count, hkey]
      · show (_ && (decide (r = role) || x.counted r)) = _
        rw [decide_eq_false hr]
        rfl
  overall := by
    intro f
    rw [Figure.sumWhere_set_of_eq hx (x.count role) rfl rfl]
    exact h.overall f

/-- Every effect keeps what is shared and the standings consistent. -/
theorem effect (h : Consistent s l) (hx : l[n]? = some x) {s' : Shared b} {x' : Standing}
    (he : Effect s x s' x') : Consistent s' (l.set n x') := by
  cases he with
  | miss =>
    rwa [set_of_getElem? hx]
  | obtain role =>
    cases hp : s.lookUp role (x.visit.keyIn role) with
    | some place =>
      rw [Shared.ensure_of_found hp]
      exact h.hold hx hp
    | none =>
      rw [Shared.ensure_of_missing hp]
      refine (h.enter hp).hold hx ?_
      rw [Shared.lookUp_enter, if_pos ⟨rfl, rfl⟩]
  | countOverall hn => exact h.countOverall hx hn
  | countAt role hp hn => exact h.countAt hx hp hn

end Consistent

/-! ### Entries and their owners -/

/-- Every entry has a callback with its key that holds it. -/
def Owned (s : Shared b) (l : List Standing) : Prop :=
  ∀ role key place, s.lookUp role key = some place →
    ∃ x ∈ l, x.visit.keyIn role = key ∧ (x.held role).isSome = true

/-- What a callback holds it keeps. -/
theorem Effect.held_isSome {s s' : Shared b} {x x' : Standing} (he : Effect s x s' x') {role : Role}
    (h : (x.held role).isSome = true) : (x'.held role).isSome = true := by
  cases he with
  | obtain r =>
    simp only [Standing.hold]
    split
    · rfl
    · exact h
  | _ => exact h

theorem Effect.visit_eq {s s' : Shared b} {x x' : Standing} (he : Effect s x s' x') :
    x'.visit = x.visit := by
  cases he <;> rfl

/-- A place is new only for the key of the callback that has just obtained it. -/
theorem Effect.lookUp_cases {s s' : Shared b} {x x' : Standing} (he : Effect s x s' x') {role : Role}
    {key : String} {place : ℕ} (h : s'.lookUp role key = some place) :
    s.lookUp role key = some place ∨
      x'.visit.keyIn role = key ∧ (x'.held role).isSome = true := by
  cases he with
  | obtain r =>
    cases hp : s.lookUp r (x.visit.keyIn r) with
    | some place' =>
      rw [Shared.ensure_of_found hp] at h
      exact .inl h
    | none =>
      rw [Shared.ensure_of_missing hp, Shared.lookUp_enter] at h
      split at h
      · rename_i hk
        obtain ⟨rfl, rfl⟩ := hk
        refine .inr ⟨rfl, ?_⟩
        simp [Standing.hold]
      · exact .inl h
  | _ => exact .inl h

theorem Owned.effect {s s' : Shared b} {l : List Standing} {n : ℕ} {x x' : Standing}
    (h : Owned s l) (hx : l[n]? = some x) (he : Effect s x s' x') : Owned s' (l.set n x') := by
  obtain ⟨hn, hxn⟩ := List.getElem?_eq_some_iff.1 hx
  intro role key place hp
  rcases he.lookUp_cases hp with hp | ⟨hk, hh⟩
  · obtain ⟨y, hy, hk, hh⟩ := h role key place hp
    obtain ⟨m, hm⟩ := List.mem_iff_getElem?.1 hy
    by_cases hnm : n = m
    · -- The owner is the callback that goes on.
      subst hnm
      obtain rfl : x = y := Option.some.inj (hx.symm.trans hm)
      exact ⟨x', List.mem_set hn x', he.visit_eq ▸ hk, he.held_isSome hh⟩
    · refine ⟨y, List.mem_of_getElem? (i := m) ?_, hk, hh⟩
      rw [List.getElem?_set_ne hnm, hm]
  · exact ⟨x', List.mem_set hn x', hk, hh⟩

end UsageLedger
