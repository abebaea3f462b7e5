/-
UsageLedger/Proofs/Json/Keyed.lean

The members of objects that are read.  Whatever text a value is read from, no object in
it has two members of one name: the parser puts members into a table, where a second
value under a name takes the place of the first.

What one token keeps of this is `State.Keyed.step`; `keyed_of_parseChars?` is the reading
of a whole text.
-/
import UsageLedger.Files

namespace UsageLedger

namespace Json

variable {v : Json} {limits : Limits} {cs rest : List Char} {t : Token} {ts : List Token}
  {frames : List Frame} {s s' : State}

/-- Neither the value nor anything inside it is an object with two members of one name. -/
inductive Keyed : Json → Prop
  | null : Keyed .null
  | bool (b : Bool) : Keyed (.bool b)
  | int (n : Int) : Keyed (.int n)
  | real (x : Number.Binary64) : Keyed (.real x)
  | text (s : String) : Keyed (.text s)
  | list {items : List Json} (inner : ∀ v ∈ items, Keyed v) : Keyed (.list items)
  | object {members : Catalog String Json} (distinct : members.keys.Nodup)
      (inner : ∀ v ∈ members.values, Keyed v) : Keyed (.object members)

theorem Keyed.nodup_keys {members : Catalog String Json} (h : Keyed (.object members)) :
    members.keys.Nodup := by
  cases h with
  | object distinct _ => exact distinct

/-- What stands under a name in an object. -/
theorem Keyed.find? {members : Catalog String Json} {name : String} (h : Keyed (.object members))
    (hv : members.find? name = some v) : Keyed v := by
  cases h with
  | object _ inner => exact inner v (List.mem_map.2 ⟨_, Catalog.mem_of_find? hv, rfl⟩)

/-! ### Tokens -/

/-- The value of a token, if it has one, has distinct names. -/
def Token.Keyed (t : Token) : Prop := ∀ v, t = .scalar v → v.Keyed

theorem keyed_of_number? {r : Json × List Char} (h : number? limits cs = some r) : r.1.Keyed := by
  unfold number? at h
  dsimp only at h
  split at h
  · rw [Option.ite_none_left_eq_some] at h
    rw [← Option.some.inj h.2]
    exact .int _
  · rw [Option.ite_none_left_eq_some] at h
    rw [← Option.some.inj h.2]
    exact .real _

theorem keyed_of_word? {r : Json × List Char} (h : word? cs = some r) : r.1.Keyed := by
  obtain ⟨w, hw, hdrop⟩ := List.exists_of_findSome?_eq_some h
  obtain ⟨rest, -, rfl⟩ := Option.map_eq_some_iff.1 hdrop
  have hwords : ∀ w ∈ words, w.2.Keyed := by
    simp only [words, List.forall_mem_cons, List.not_mem_nil, false_implies, implies_true, and_true]
    exact ⟨.bool _, .bool _, .null, .real _, .real _, .real _⟩
  exact hwords w hw

theorem keyed_of_mark? {c : Char} (h : mark? c = some t) : t.Keyed := by
  rintro v rfl
  unfold mark? at h
  repeat' split at h
  all_goals cases h

theorem keyed_of_token? {c : Char} {r : Token × List Char} (h : token? limits c cs = some r) :
    r.1.Keyed := by
  unfold token? at h
  split at h
  · rename_i t hmark
    cases h
    exact keyed_of_mark? hmark
  · split at h
    · obtain ⟨r, -, rfl⟩ := Option.map_eq_some_iff.1 h
      rintro v ⟨⟩
      exact .text _
    · split at h
      · rename_i r hword
        cases h
        rintro v ⟨⟩
        exact keyed_of_word? hword
      · split at h
        · obtain ⟨r, hnumber, rfl⟩ := Option.map_eq_some_iff.1 h
          rintro v ⟨⟩
          exact keyed_of_number? hnumber
        · cases h

theorem keyed_of_tokens? {steps : Nat} (h : tokens? limits steps cs = some ts) :
    ∀ t ∈ ts, t.Keyed := by
  induction steps generalizing cs ts with
  | zero => cases h
  | succ steps ih =>
    cases cs with
    | nil =>
      cases h
      simp
    | cons c rest =>
      unfold tokens? at h
      split at h
      · exact ih h
      · split at h
        · cases h
        · rename_i t rest' htoken
          obtain ⟨later, hlater, rfl⟩ := Option.map_eq_some_iff.1 h
          exact List.forall_mem_cons.2 ⟨keyed_of_token? htoken, ih hlater⟩

/-! ### The parser -/

/-- What has been read of a list or object has distinct names. -/
def Frame.Keyed : Frame → Prop
  | .items done => ∀ v ∈ done, v.Keyed
  | .members done _ => (Catalog.keys done).Nodup ∧ ∀ v ∈ Catalog.values done, v.Keyed

/-- What has been read has distinct names. -/
structure State.Keyed (s : State) : Prop where
  frames : ∀ f ∈ s.frames, f.Keyed
  finished : ∀ v, s.mode = .finished v → v.Keyed

theorem State.keyed_deliver (hf : ∀ f ∈ frames, f.Keyed) (hv : v.Keyed) :
    (State.deliver frames v).Keyed := by
  unfold State.deliver
  split
  · exact ⟨hf, fun w hw => by cases hw; exact hv⟩
  · obtain ⟨hdone, houter⟩ := List.forall_mem_cons.1 hf
    exact ⟨List.forall_mem_cons.2 ⟨List.forall_mem_cons.2 ⟨hv, hdone⟩, houter⟩, fun w hw => by cases hw⟩
  · obtain ⟨⟨hkeys, hdone⟩, houter⟩ := List.forall_mem_cons.1 hf
    refine ⟨List.forall_mem_cons.2 ⟨⟨Catalog.nodup_keys_put _ _ hkeys, fun w hw => ?_⟩, houter⟩,
      fun w hw => by cases hw⟩
    rcases Catalog.mem_values_put hw with rfl | hw
    · exact hv
    · exact hdone w hw

theorem State.keyed_of_push {f : Frame} {mode : Mode} (hf : ∀ f ∈ frames, f.Keyed) (hnew : f.Keyed)
    (hmode : ∀ v, mode ≠ .finished v) (h : State.push limits frames f mode = some s) : s.Keyed := by
  have hopen : s = ⟨f :: frames, mode⟩ := by
    unfold State.push at h
    split at h
    · split at h
      · cases h
      · exact (Option.some.inj h).symm
    · exact (Option.some.inj h).symm
  rw [hopen]
  exact ⟨List.forall_mem_cons.2 ⟨hnew, hf⟩, fun v hv => absurd hv (hmode v)⟩

/-- **One token** keeps the names distinct. -/
theorem State.Keyed.step (hs : s.Keyed) (ht : t.Keyed) (h : s.step limits t = some s') : s'.Keyed := by
  obtain ⟨frames, mode⟩ := s
  obtain ⟨hframes, -⟩ := hs
  have hlist {done : List Json} (hdone : (Frame.items done).Keyed) : (Json.list done.reverse).Keyed :=
    .list fun v hv => hdone v (List.mem_reverse.1 hv)
  unfold State.step at h
  dsimp only at h hframes
  split at h
  · cases h
    exact State.keyed_deliver hframes (ht _ rfl)
  · have hnew : (Frame.items []).Keyed := fun _ hv => by cases hv
    exact State.keyed_of_push hframes hnew (fun _ hv => by cases hv) h
  · have hnew : (Frame.members [] "").Keyed := ⟨.nil, fun _ hv => by cases hv⟩
    exact State.keyed_of_push hframes hnew (fun _ hv => by cases hv) h
  · cases h
    obtain ⟨hdone, houter⟩ := List.forall_mem_cons.1 hframes
    exact State.keyed_deliver houter (hlist hdone)
  · cases h
    obtain ⟨hdone, houter⟩ := List.forall_mem_cons.1 hframes
    exact ⟨List.forall_mem_cons.2 ⟨hdone, houter⟩, fun _ hv => by cases hv⟩
  · cases h
    obtain ⟨⟨hkeys, hdone⟩, houter⟩ := List.forall_mem_cons.1 hframes
    exact State.keyed_deliver houter (.object hkeys hdone)
  · cases h
    exact ⟨hframes, fun _ hv => by cases hv⟩
  · cases h
    exact ⟨hframes, fun _ hv => by cases hv⟩
  · cases h
    obtain ⟨hdone, houter⟩ := List.forall_mem_cons.1 hframes
    exact ⟨List.forall_mem_cons.2 ⟨hdone, houter⟩, fun _ hv => by cases hv⟩
  · cases h
    obtain ⟨hdone, houter⟩ := List.forall_mem_cons.1 hframes
    exact State.keyed_deliver houter (hlist hdone)
  · cases h
    obtain ⟨⟨hkeys, hdone⟩, houter⟩ := List.forall_mem_cons.1 hframes
    exact State.keyed_deliver houter (.object hkeys hdone)
  · cases h

theorem State.Keyed.run (hs : s.Keyed) (ht : ∀ t ∈ ts, t.Keyed) (h : s.run limits ts = some s') :
    s'.Keyed := by
  induction ts generalizing s with
  | nil =>
    cases h
    exact hs
  | cons t rest ih =>
    obtain ⟨hfirst, hrest⟩ := List.forall_mem_cons.1 ht
    obtain ⟨next, hstep, hrun⟩ := Option.bind_eq_some_iff.1 h
    exact ih (hs.step hfirst hstep) hrest hrun

/-- **Reading** gives values with distinct names, whatever the text. -/
theorem keyed_of_parseChars? (h : parseChars? limits cs = some v) : v.Keyed := by
  obtain ⟨ts, htokens, hparse⟩ := Option.bind_eq_some_iff.1 h
  unfold ofTokens? at hparse
  split at hparse
  · rename_i hrun
    cases hparse
    have hstart : State.start.Keyed := ⟨fun _ hf => absurd hf List.not_mem_nil, fun _ hv => by cases hv⟩
    exact (hstart.run (keyed_of_tokens? htokens) hrun).finished _ rfl
  · cases hparse

end Json

/-- The value in a file has distinct names. -/
theorem FileState.keyed_of_json? {state : FileState} {v : Json} (h : state.json? = some v) :
    v.Keyed := by
  cases state with
  | missing => cases h
  | directory => cases h
  | bytes content =>
    obtain ⟨cs, -, hparse⟩ := Option.bind_eq_some_iff.1 h
    exact Json.keyed_of_parseChars? hparse

end UsageLedger
