/-
UsageLedger/Proofs/Report/Effect.lean

What one step of a callback can do to what is shared.  The eight stages come down
to a `Standing`: which places the callback has got and where it has counted its
node.  A step misses, obtains a place, counts overall or counts at a place that
the callback holds, and nothing else (`effect_of_advance`); a key that is found
outside the lock is obtained like one under the lock.

A place that a look-up has found stays where it is.  `prefix_table_of_run` says
so of every run: the tables only grow at their end.
-/
import Mathlib.Algebra.BigOperators.Group.List.Basic
import UsageLedger.Report.Shared

namespace UsageLedger

variable {b : Borders}

/-! ### One element set -/

theorem set_of_getElem? {α : Type} {l : List α} {n : ℕ} {a : α} (h : l[n]? = some a) :
    l.set n a = l := by
  obtain ⟨hn, rfl⟩ := List.getElem?_eq_some_iff.1 h
  exact List.set_getElem_self hn

/-- Setting one element takes its weight out of a sum and puts in that of the new one. -/
theorem sum_map_set {α M : Type} [AddCommMonoid M] {l : List α} {n : ℕ} {a : α}
    (h : l[n]? = some a) (a' : α) (w : α → M) :
    ((l.set n a').map w).sum + w a = (l.map w).sum + w a' := by
  induction l generalizing n with
  | nil => cases h
  | cons x rest ih =>
    cases n with
    | zero =>
      cases h
      show w a' + (rest.map w).sum + w a = w a + (rest.map w).sum + w a'
      rw [add_comm (w a' + _), add_comm (w a'), ← add_assoc]
    | succ n =>
      show w x + ((rest.set n a').map w).sum + w a = w x + (rest.map w).sum + w a'
      rw [add_assoc, ih h, add_assoc]

/-! ### Standings -/

/-- What a callback has come to: the places that it holds, and where its node has been counted. -/
structure Standing where
  visit : Visit
  held : Role → Option ℕ
  counted : Role → Bool
  countedOverall : Bool

namespace Standing

/-- The standing of a callback that has done nothing yet. -/
def begin (v : Visit) : Standing := ⟨v, fun _ => none, fun _ => false, false⟩

/-- The standing with a place obtained. -/
def hold (x : Standing) (role : Role) (place : ℕ) : Standing :=
  { x with held := fun r => if r = role then some place else x.held r }

/-- The standing with the node counted overall. -/
def countOverall (x : Standing) : Standing := { x with countedOverall := true }

/-- The standing with the node counted in a table. -/
def count (x : Standing) (role : Role) : Standing :=
  { x with counted := fun r => r = role || x.counted r }

/-- The standing with the places for group and user obtained. -/
def resolve (v : Visit) (group user : ℕ) : Standing := ((begin v).hold .group group).hold .user user

end Standing

/-- The standing of a callback. -/
def Callback.standing (c : Callback) : Standing :=
  match c.stage with
  | .started => .begin c.visit
  | .groupMissed => .begin c.visit
  | .groupHeld g => (Standing.begin c.visit).hold .group g
  | .userMissed g => (Standing.begin c.visit).hold .group g
  | .resolved g u => .resolve c.visit g u
  | .countedOverall g u => (Standing.resolve c.visit g u).countOverall
  | .countedGroup g u => (Standing.resolve c.visit g u).countOverall.count .group
  | .finished g u => ((Standing.resolve c.visit g u).countOverall.count .group).count .user

@[simp] theorem Callback.visit_standing (c : Callback) : c.standing.visit = c.visit := by
  obtain ⟨v, st⟩ := c
  cases st <;> rfl

/-! ### Effects -/

/-- What a step of a callback can do: to what is shared, and to the callback's own standing. -/
inductive Effect (s : Shared b) (x : Standing) : Shared b → Standing → Prop
  | miss : Effect s x s x
  | obtain (role : Role) :
      Effect s x (s.ensure role (x.visit.keyIn role)).1
        (x.hold role (s.ensure role (x.visit.keyIn role)).2)
  | countOverall (hn : x.countedOverall = false) :
      Effect s x (s.countOverall x.visit.node) x.countOverall
  | countAt (role : Role) {place : ℕ} (hp : x.held role = some place) (hn : x.counted role = false) :
      Effect s x (s.countAt place x.visit.node) (x.count role)

theorem Shared.ensure_of_found {s : Shared b} {role : Role} {key : String} {place : ℕ}
    (h : s.lookUp role key = some place) : s.ensure role key = (s, place) := by
  unfold ensure
  rw [h]

theorem Shared.ensure_of_missing {s : Shared b} {role : Role} {key : String}
    (h : s.lookUp role key = none) : s.ensure role key = (s.enter role key, s.usages.length) := by
  unfold ensure
  rw [h]

/-- A look-up outside the lock that finds the key obtains the place that it has under the lock. -/
theorem Effect.found {s : Shared b} {x : Standing} (role : Role) {place : ℕ}
    (h : s.lookUp role (x.visit.keyIn role) = some place) : Effect s x s (x.hold role place) := by
  have ho : Effect s x (s.ensure role (x.visit.keyIn role)).1
      (x.hold role (s.ensure role (x.visit.keyIn role)).2) := .obtain role
  rwa [Shared.ensure_of_found h] at ho

/-- Every step of a callback is one of the effects. -/
theorem effect_of_advance {s s' : Shared b} {v : Visit} {st st' : Stage}
    (h : s.advance v st = some (s', st')) :
    Effect s (Callback.standing ⟨v, st⟩) s' (Callback.standing ⟨v, st'⟩) := by
  cases st with
  | started =>
    simp only [Shared.advance] at h
    split at h
    · rename_i g hg
      cases h
      exact .found .group hg
    · cases h
      exact .miss
  | groupMissed =>
    -- The locked look-up does not rely on the first one, so what was missed then does not matter.
    cases h
    exact .obtain .group
  | groupHeld g =>
    simp only [Shared.advance] at h
    split at h
    · rename_i u hu
      cases h
      exact .found .user hu
    · cases h
      exact .miss
  | userMissed g =>
    cases h
    exact .obtain .user
  | resolved g u =>
    cases h
    exact .countOverall rfl
  | countedOverall g u =>
    cases h
    exact .countAt .group rfl rfl
  | countedGroup g u =>
    cases h
    exact .countAt .user rfl rfl
  | finished g u => cases h

/-- A turn has one effect, and only the callback whose turn it is comes further. -/
theorem System.effect_of_turn {s s' : System b} {n : ℕ} (h : s.turn? n = some s') :
    ∃ c c' : Callback, s.running[n]? = some c ∧ c'.visit = c.visit ∧
      s'.running = s.running.set n c' ∧ Effect s.shared c.standing s'.shared c'.standing := by
  simp only [turn?, Option.bind_eq_bind, Option.bind_eq_some_iff] at h
  obtain ⟨c, hc, ⟨shared, stage⟩, ha, hs⟩ := h
  cases hs
  exact ⟨c, ⟨c.visit, stage⟩, hc, rfl, rfl, effect_of_advance ha⟩

/-! ### The tables only grow -/

theorem Shared.lookUp_enter (s : Shared b) (role role' : Role) (key key' : String) :
    (s.enter role key).lookUp role' key' =
      if role' = role ∧ key' = key then some s.usages.length else s.lookUp role' key' := by
  unfold lookUp enter
  by_cases hr : role' = role
  · subst hr
    simp [Catalog.find?_put, eq_comm]
  · simp [hr]

/-- An effect keeps every entry of a table, with its place, and the order of the entries. -/
theorem Effect.prefix_table {s s' : Shared b} {x x' : Standing} (h : Effect s x s' x') (role : Role) :
    s.table role <+: s'.table role := by
  cases h with
  | miss => exact List.prefix_rfl
  | countOverall => exact List.prefix_rfl
  | countAt => exact List.prefix_rfl
  | obtain role' =>
    cases hp : s.lookUp role' (x.visit.keyIn role') with
    | some place =>
      have hs : (s.ensure role' (x.visit.keyIn role')).1.table role = s.table role := by
        rw [Shared.ensure_of_found hp]
      exact hs ▸ List.prefix_rfl
    | none =>
      rw [Shared.ensure_of_missing hp]
      show s.table role <+: if role = role' then (s.table role).put _ _ else s.table role
      split
      · -- The key was missing under the lock, so it goes to the end.
        rename_i hr
        subst hr
        rw [Catalog.put_of_find?_eq_none hp]
        exact List.prefix_append _ _
      · exact List.prefix_rfl

/-! ### Runs -/

namespace System

/-- What every turn keeps, every run keeps. -/
theorem run_induction {P : System b → Prop}
    (turn : ∀ {s s' : System b} {n : ℕ}, s.turn? n = some s' → P s → P s')
    {s s' : System b} {schedule : List ℕ} (h : s.run? schedule = some s') (hs : P s) : P s' := by
  induction schedule generalizing s with
  | nil =>
    cases h
    exact hs
  | cons n rest ih =>
    simp only [run?, Option.bind_eq_bind, Option.bind_eq_some_iff] at h
    obtain ⟨t, ht, hr⟩ := h
    exact ih hr (turn ht hs)

/-- Between two states of a run no entry is removed, and none comes to another place. -/
theorem prefix_table_of_run {s s' : System b} {schedule : List ℕ} (h : s.run? schedule = some s')
    (role : Role) : s.shared.table role <+: s'.shared.table role := by
  refine run_induction (P := fun t => s.shared.table role <+: t.shared.table role) ?_ h
    List.prefix_rfl
  intro t t' n ht hp
  obtain ⟨c, c', -, -, -, he⟩ := effect_of_turn ht
  exact hp.trans (he.prefix_table role)

theorem visits_of_run {s s' : System b} {schedule : List ℕ} (h : s.run? schedule = some s') :
    s'.running.map (·.visit) = s.running.map (·.visit) := by
  refine run_induction (P := fun t => t.running.map (·.visit) = s.running.map (·.visit)) ?_ h rfl
  intro t t' n ht hp
  obtain ⟨c, c', hc, hv, hs, -⟩ := effect_of_turn ht
  rw [hs, List.map_set, hv, set_of_getElem? (by simp [hc]), hp]

end System

/-! ### Every run can be finished -/

/-- The number of steps that may be left at a stage. -/
def Stage.left : Stage → ℕ
  | .started => 7
  | .groupMissed => 6
  | .groupHeld _ => 5
  | .userMissed _ => 4
  | .resolved _ _ => 3
  | .countedOverall _ _ => 2
  | .countedGroup _ _ => 1
  | .finished _ _ => 0

theorem left_of_advance {s s' : Shared b} {v : Visit} {st st' : Stage}
    (h : s.advance v st = some (s', st')) : st'.left < st.left := by
  cases st with
  | started =>
    simp only [Shared.advance] at h
    split at h <;> cases h <;> simp [Stage.left]
  | groupHeld g =>
    simp only [Shared.advance] at h
    split at h <;> cases h <;> simp [Stage.left]
  | finished g u => cases h
  | _ =>
    cases h
    simp [Stage.left]

/-- Only a callback that has finished has no step left. -/
theorem eq_finished_of_advance {s : Shared b} {v : Visit} {st : Stage} (h : s.advance v st = none) :
    ∃ g u, st = .finished g u := by
  cases st with
  | started =>
    simp only [Shared.advance] at h
    split at h <;> cases h
  | groupHeld g =>
    simp only [Shared.advance] at h
    split at h <;> cases h
  | finished g u => exact ⟨g, u, rfl⟩
  | _ => cases h

namespace System

/-- The number of steps that may be left to all callbacks. -/
def left (s : System b) : ℕ := (s.running.map (·.stage.left)).sum

theorem left_of_turn {s s' : System b} {n : ℕ} (h : s.turn? n = some s') : s'.left < s.left := by
  simp only [turn?, Option.bind_eq_bind, Option.bind_eq_some_iff] at h
  obtain ⟨c, hc, ⟨shared, stage⟩, ha, hs⟩ := h
  cases hs
  have hsum := sum_map_set hc ⟨c.visit, stage⟩ (·.stage.left)
  have hlt : stage.left < c.stage.left := left_of_advance ha
  show ((s.running.set n ⟨c.visit, stage⟩).map (·.stage.left)).sum < (s.running.map _).sum
  dsimp only at hsum
  omega

/-- No callback waits for another one for ever: from every state on, some schedule finishes. -/
theorem exists_finished (s : System b) : ∃ schedule s', s.run? schedule = some s' ∧ s'.Finished := by
  induction hl : s.left using Nat.strongRecOn generalizing s with
  | ind left ih =>
    by_cases hf : s.Finished
    · exact ⟨[], s, rfl, hf⟩
    · obtain ⟨n, hn⟩ := not_forall.1 hf
      obtain ⟨t, ht⟩ := Option.ne_none_iff_exists'.1 hn
      obtain ⟨schedule, s', hr, hs'⟩ := ih t.left (hl ▸ left_of_turn ht) t rfl
      refine ⟨n :: schedule, s', ?_, hs'⟩
      show (s.turn? n).bind (·.run? schedule) = some s'
      rw [ht]
      exact hr

theorem Finished.eq_finished {s : System b} (h : s.Finished) {c : Callback} (hc : c ∈ s.running) :
    ∃ g u, c.stage = .finished g u := by
  obtain ⟨n, hn⟩ := List.mem_iff_getElem?.1 hc
  have ht := h n
  simp only [turn?, Option.bind_eq_bind, hn, Option.bind_some, Option.bind_eq_none_iff] at ht
  apply eq_finished_of_advance (s := s.shared) (v := c.visit)
  cases ha : s.shared.advance c.visit c.stage with
  | none => rfl
  | some p => cases ht p ha

end System

end UsageLedger
