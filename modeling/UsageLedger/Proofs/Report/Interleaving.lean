/-
UsageLedger/Proofs/Report/Interleaving.lean

Callbacks that work at once do not disturb each other.  Every turn has one effect,
so what is shared is consistent with the callbacks in every state of every
schedule.  Once no callback has a step left, what they have counted is all that
there is to count, and nothing is left of the order in which it was counted.

`System.Safe` is what this comes to for a user of the report.
-/
import UsageLedger.Proofs.Report.Attribution
import UsageLedger.Proofs.Report.Consistent

namespace UsageLedger

variable {b : Borders}

namespace System

/-- The standings of all callbacks. -/
def standings (s : System b) : List Standing := s.running.map Callback.standing

/-! ### What holds in every state -/

/-- What is shared agrees with the callbacks. -/
structure Invariant (s : System b) : Prop where
  consistent : Consistent s.shared s.standings
  owned : Owned s.shared s.standings

theorem invariant_start (b : Borders) (visits : List Visit) : (start b visits).Invariant := by
  have hbegin : ∀ x ∈ (start b visits).standings, ∃ v, x = Standing.begin v := by
    intro x hx
    simp only [standings, start, List.map_map, List.mem_map] at hx
    obtain ⟨v, -, rfl⟩ := hx
    exact ⟨v, rfl⟩
  have hnone (role : Role) (key : String) : (start b visits).shared.lookUp role key = none := rfl
  refine ⟨⟨fun _ => .nil, ?_, ?_, ?_, ?_, ?_⟩, ?_⟩
  · intro role role' key key' place hp
    rw [hnone] at hp
    cases hp
  · intro x hx role place hp
    obtain ⟨v, rfl⟩ := hbegin x hx
    cases hp
  · intro x hx role hc
    obtain ⟨v, rfl⟩ := hbegin x hx
    cases hc
  · intro role key place hp
    rw [hnone] at hp
    cases hp
  · intro f
    show (Usage.zero b).figure f = _
    rw [Usage.figure_zero, Figure.sumWhere_eq_zero]
    intro x hx
    obtain ⟨v, rfl⟩ := hbegin x hx
    rfl
  · intro role key place hp
    rw [hnone] at hp
    cases hp

theorem Invariant.turn {s s' : System b} {n : ℕ} (h : s.Invariant) (ht : s.turn? n = some s') :
    s'.Invariant := by
  obtain ⟨c, c', hc, -, hs, he⟩ := effect_of_turn ht
  have hx : s.standings[n]? = some c.standing := by
    unfold standings
    rw [List.getElem?_map, hc]
    rfl
  have hs' : s'.standings = s.standings.set n c'.standing := by
    unfold standings
    rw [hs, List.map_set]
  refine ⟨?_, ?_⟩
  · rw [hs']
    exact h.consistent.effect hx he
  · rw [hs']
    exact h.owned.effect hx he

theorem invariant_of_run {visits : List Visit} {s : System b} {schedule : List ℕ}
    (h : (start b visits).run? schedule = some s) : s.Invariant :=
  run_induction (P := Invariant) (fun ht hi => hi.turn ht) h (invariant_start b visits)

end System

/-! ### When all is counted -/

theorem Figure.sumWhere_eq_total {f : Figure} {p : Standing → Bool} {q : Visit → Bool}
    {l : List Standing} (h : ∀ x ∈ l, p x = q x.visit) :
    f.sumWhere b p l = f.total b ((l.map (·.visit)).filter q) := by
  induction l with
  | nil => rfl
  | cons x rest ih =>
    have hx : p x = q x.visit := h x List.mem_cons_self
    have hr := ih fun y hy => h y (List.mem_cons_of_mem x hy)
    show (if p x then f.share b x.visit.node else 0) + f.sumWhere b p rest = _
    rw [hr, hx, List.map_cons, List.filter_cons]
    cases q x.visit with
    | true => rfl
    | false => exact Int.zero_add _

theorem Shared.keys_entries (s : Shared b) (role : Role) :
    (s.entries role).keys = (s.table role).keys := by
  unfold entries Catalog.keys
  rw [List.map_map]
  rfl

theorem Shared.find?_entries (s : Shared b) (role : Role) (key : String) :
    (s.entries role).find? key =
      (s.lookUp role key).map fun place => s.usages.getD place (.zero b) := by
  unfold entries lookUp
  induction s.table role with
  | nil => rfl
  | cons e rest ih =>
    obtain ⟨k, place⟩ := e
    by_cases hk : k = key
    · simp [Catalog.find?, hk]
    · simpa [Catalog.find?, hk] using ih

/-- When all callbacks have counted in a table, it is the table of their visits. -/
theorem Consistent.attributed {s : Shared b} {l : List Standing} (h : Consistent s l)
    (ho : Owned s l) {role : Role} (hf : ∀ x ∈ l, x.counted role = true) :
    Attributed (s.entries role) (·.keyIn role) (l.map (·.visit)) where
  nodup := by
    rw [s.keys_entries]
    exact h.nodup role
  mem_keys := by
    intro k
    rw [s.keys_entries, ← Catalog.find?_isSome_iff]
    show (s.lookUp role k).isSome = true ↔ _
    constructor
    · intro hk
      obtain ⟨place, hp⟩ := Option.isSome_iff_exists.1 hk
      obtain ⟨x, hx, hkey, -⟩ := ho role k place hp
      exact ⟨x.visit, List.mem_map_of_mem hx, hkey⟩
    · rintro ⟨v, hv, rfl⟩
      obtain ⟨x, hx, rfl⟩ := List.mem_map.1 hv
      obtain ⟨place, hp⟩ := Option.isSome_iff_exists.1 (h.holds hx (hf x hx))
      exact Option.isSome_of_eq_some (h.held hx hp)
  figure_eq := by
    intro k u hu f
    rw [s.find?_entries, Option.map_eq_some_iff] at hu
    obtain ⟨place, hp, rfl⟩ := hu
    obtain ⟨u, hu, hfig⟩ := h.figure hp
    rw [List.getD_eq_getElem?_getD, hu, Option.getD_some, hfig]
    apply Figure.sumWhere_eq_total
    intro x hx
    simp [Standing.countsFor, hf x hx]

/-- Two reports that show the same: only the rows of a table may come in different orders. -/
structure Report.Agrees (r r' : Report b) : Prop where
  path : r.path = r'.path
  overall : r.overall = r'.overall
  groups : r.groups.Perm r'.groups
  users : r.users.Perm r'.users

theorem Report.path_ofVisits (b : Borders) (path : String) (visits : List Visit) :
    (ofVisits b path visits).path = path := by
  have hrecord (r : Report b) (n : Node) : (r.record n).path = r.path := by
    unfold record
    split <;> rfl
  have hfold (r : Report b) : (visits.foldl (fun r v => r.record v.node) r).path = r.path := by
    induction visits generalizing r with
    | nil => rfl
    | cons v rest ih => exact (ih _).trans (hrecord r v.node)
  exact hfold (start b path)

namespace System

theorem Finished.counted {s : System b} (h : s.Finished) {x : Standing} (hx : x ∈ s.standings) :
    x.countedOverall = true ∧ ∀ role, x.counted role = true := by
  obtain ⟨c, hc, rfl⟩ := List.mem_map.1 hx
  obtain ⟨g, u, hs⟩ := h.eq_finished hc
  obtain ⟨v, st⟩ := c
  subst hs
  refine ⟨rfl, ?_⟩
  rintro (_ | _) <;> rfl

/-- The report of callbacks that have all finished is the report of their visits one after another,
in any order. -/
theorem Invariant.agrees {s : System b} (h : s.Invariant) (hf : s.Finished) (path : String)
    {order : List Visit} (ho : (s.running.map (·.visit)).Perm (callbacks order)) :
    (s.report path).Agrees (.ofVisits b path order) := by
  have hv : s.standings.map (·.visit) = s.running.map (·.visit) := by
    unfold standings
    rw [List.map_map]
    exact List.map_congr_left fun c _ => c.visit_standing
  have ha := Report.accounts_ofVisits b path order
  have hperm : (s.standings.map (·.visit)).Perm (callbacks order) := hv ▸ ho
  have attributed (role : Role) :
      Attributed (s.shared.entries role) (·.keyIn role) (s.standings.map (·.visit)) :=
    h.consistent.attributed h.owned fun x hx => (hf.counted hx).2 role
  refine ⟨(Report.path_ofVisits b path order).symm, ?_, ?_, ?_⟩
  · apply Usage.ext_figure
    intro f
    show s.shared.overall.figure f = _
    rw [h.consistent.overall, ha.overall,
      Figure.sumWhere_eq_total (q := fun _ => true) fun x hx => (hf.counted hx).1, List.filter_true]
    exact (hperm.map _).sum_eq
  · exact (attributed .group).perm ha.groups.toAttributed hperm
  · exact (attributed .user).perm ha.users.toAttributed hperm

/-! ### Interleaving -/

/-- What is promised of a state that callbacks of some visits have come to. -/
structure Safe (s : System b) (visits : List Visit) : Prop where
  /-- Whatever happens next, no entry is removed or comes to another place. -/
  kept : ∀ {later s'}, s.run? later = some s' → ∀ role, s.shared.table role <+: s'.shared.table role
  /-- Callbacks with one key hold one place: the one to which the key leads now. -/
  one_place : ∀ {c c'}, c ∈ s.running → c' ∈ s.running → ∀ {role place place'},
    c.visit.keyIn role = c'.visit.keyIn role → c.standing.held role = some place →
    c'.standing.held role = some place' →
    place' = place ∧ s.shared.lookUp role (c.visit.keyIn role) = some place
  /-- The usage there shows what exactly the callbacks with the key have counted so far. -/
  counted : ∀ {role key place}, s.shared.lookUp role key = some place →
    ∃ u, s.shared.usages[place]? = some u ∧
      ∀ f : Figure, u.figure f = f.sumWhere b (·.countsFor role key) s.standings
  /-- When no callback has a step left, the report is the one of the visits one after another. -/
  report : s.Finished → ∀ path order, order.Perm visits →
    (s.report path).Agrees (.ofVisits b path order)
  /-- The callbacks can always come to an end. -/
  finishes : ∃ rest s', s.run? rest = some s' ∧ s'.Finished

/-- **Interleaving is safe.**  Callbacks of any visits take turns in any order: entries are neither
replaced nor removed, all callbacks with a key hold the entry of the key and count there, and when
they have finished, the report is that of the visits one after another, in any order. -/
theorem safe_of_run {visits : List Visit} {schedule : List ℕ} {s : System b}
    (h : (start b visits).run? schedule = some s) : s.Safe visits where
  kept := fun hr role => prefix_table_of_run hr role
  one_place := by
    intro c c' hc hc' role place place' hk hp hp'
    have hi := (invariant_of_run h).consistent
    have hl := hi.held (List.mem_map_of_mem hc) hp
    have hl' := hi.held (List.mem_map_of_mem hc') hp'
    rw [Callback.visit_standing] at hl hl'
    rw [← hk, hl] at hl'
    exact ⟨(Option.some.inj hl').symm, hl⟩
  counted := (invariant_of_run h).consistent.figure
  report := by
    intro hf path order ho
    apply (invariant_of_run h).agrees hf path
    have hv : s.running.map (·.visit) = callbacks visits := by
      rw [visits_of_run h]
      simp [start, Function.comp_def]
    rw [hv]
    exact (ho.filter _).symm
  finishes := s.exists_finished

/-- Two files of one group, of two users. -/
def race : List Visit :=
  [ ⟨"/a", ⟨.file, .text "a", .text "ann", .text "staff", 7, 1⟩⟩,
    ⟨"/b", ⟨.file, .text "b", .text "ben", .text "staff", 9, 2⟩⟩ ]

/-- Both look for the group before either has entered it, and hold one place for it all the same. -/
theorem safe_of_run_race :
    ∃ s, (start .standard race).run? [0, 1, 1, 0, 0, 1, 1, 0, 0, 1, 1, 0, 0, 1] = some s ∧
      s.running.map (·.stage) = [.finished 0 2, .finished 0 1] ∧ s.Safe race := by
  have hr : ((start .standard race).run? [0, 1, 1, 0, 0, 1, 1, 0, 0, 1, 1, 0, 0, 1]).map
      (·.running.map (·.stage)) = some [.finished 0 2, .finished 0 1] := by
    decide +kernel
  obtain ⟨s, hs, hstages⟩ := Option.map_eq_some_iff.1 hr
  exact ⟨s, hs, hstages, safe_of_run hs⟩

end System

end UsageLedger
