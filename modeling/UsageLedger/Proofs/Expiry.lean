/-
UsageLedger/Proofs/Expiry.lean

How old an identity out of the file can be.  A run loads the file, fetches further
identities from the cluster, and at its end writes all that are resolved, each with the
second of the writing.  What an identity is judged by at the next loading is therefore
its last writing and not its last fetch.

In every sequence of runs the age is bounded by a lifetime and the length of a run for each
run since the fetch (`History.age_le`).  Where every identity is written in the second of
its fetch, an age is at most one lifetime (`History.served_within_lifetime`); runs that
follow each other in less than a lifetime keep an identity alive for longer
(`Restamped.served_past_lifetime`).
-/
import Mathlib
import UsageLedger.Proofs.IdentityStore.RoundTrip

namespace UsageLedger

/-- What a table holds after an entry is put into it is that entry or was there before. -/
theorem Catalog.mem_put {κ α : Type} [DecidableEq κ] {key : κ} {value : α} {c : Catalog κ α}
    {e : κ × α} (h : e ∈ c.put key value) : e = (key, value) ∨ e ∈ c := by
  induction c with
  | nil => exact .inl (List.mem_singleton.1 h)
  | cons first rest ih =>
    unfold Catalog.put at h
    split at h
    · rename_i hk
      rw [hk] at h
      exact (List.mem_cons.1 h).imp_right (List.mem_cons_of_mem _)
    · rcases List.mem_cons.1 h with rfl | h
      · exact .inr List.mem_cons_self
      · exact (ih h).imp_right (List.mem_cons_of_mem _)

namespace IdentityStore

open Number CommandLine

variable {identities kept served : Catalog String Json} {state : FileState} {now written : ℤ}

/-! ### Runs -/

/-- An identity that the cluster gave, and when. -/
structure Fetch where
  time : ℤ
  id : String
  identity : Json

/-- Whether an entry of a table of identities is what the cluster gave. -/
def Fetch.Gives (f : Fetch) (e : String × Json) : Prop := f.id = e.1 ∧ f.identity = e.2

/-- A run against the cluster as the file of identities sees it. -/
structure Round where
  /-- The second of the loading. -/
  began : ℤ
  /-- What the file served. -/
  served : Catalog String Json
  /-- What the cluster gave, one identity after another. -/
  fetches : List Fetch
  /-- The second of the writing. -/
  ended : ℤ
  /-- Whether the run came to writing the file, and the file could be written. -/
  saved : Bool

namespace Round

/-- The identities in memory at the end. -/
def memory (r : Round) : Catalog String Json :=
  r.fetches.foldl (fun memory f => memory.put f.id f.identity) r.served

/-- The identities that are written, if any are. -/
def kept? (r : Round) : Option (Catalog String Json) :=
  if r.saved then (resolved r.memory).toOption else none

/-- The file after the run. -/
def left (r : Round) (file : FileState) : FileState :=
  match r.kept? with
  | some kept => .ofText (content kept r.ended)
  | none => file

/-- What is written reads back, if it can be read, as what it is the text of. -/
def Legible (r : Round) : Prop :=
  ∀ kept, r.kept? = some kept → ∀ v, (FileState.ofText (content kept r.ended)).json? = some v →
    v = .object (records kept r.ended)

/-- How long an identity that is fetched in a run can be served without being written again. -/
def allowance (r : Round) : ℤ := lifetime + (r.ended - r.began)

end Round

/-- Some runs, latest first, each of them at the file that the runs before left. -/
inductive History : List Round → FileState → Prop
  | start : History [] .missing
  | next {earlier : List Round} {file : FileState} {r : Round} (before : History earlier file)
      (verbose : Bool) (loads : (load verbose fileName file r.began).2 = .ok r.served)
      (follows : ∀ p ∈ earlier.head?, p.ended ≤ r.began) (lasts : r.began ≤ r.ended)
      (within : ∀ f ∈ r.fetches, r.began ≤ f.time ∧ f.time ≤ r.ended) :
      History (r :: earlier) (r.left file)

/-- An identity was fetched at some time or later. -/
def FetchedSince (time : ℤ) (rounds : List Round) (e : String × Json) : Prop :=
  ∃ r ∈ rounds, ∃ f ∈ r.fetches, f.Gives e ∧ time ≤ f.time

theorem FetchedSince.mono {time earlier : ℤ} {rounds more : List Round} {e : String × Json}
    (h : FetchedSince time rounds e) (ht : earlier ≤ time) (hr : rounds ⊆ more) :
    FetchedSince earlier more e := by
  obtain ⟨r, hmem, f, hf, hgives, htime⟩ := h
  exact ⟨r, hr hmem, f, hf, hgives, Int.le_trans ht htime⟩

/-- Every identity that a run wrote was fetched in the second of the writing. -/
def Prompt : List Round → Prop
  | [] => True
  | r :: earlier =>
    (∀ kept, r.kept? = some kept → ∀ e ∈ kept, FetchedSince r.ended (r :: earlier) e) ∧ Prompt earlier

variable {r : Round} {rounds earlier later : List Round} {file : FileState} {e : String × Json}

/-! ### Where identities come from -/

theorem mem_of_mem_foldl_put (fetches : List Fetch) (served : Catalog String Json)
    (h : e ∈ fetches.foldl (fun memory f => memory.put f.id f.identity) served) :
    (∃ f ∈ fetches, f.Gives e) ∨ e ∈ served := by
  induction fetches generalizing served with
  | nil => exact .inr h
  | cons f rest ih =>
    rcases ih _ h with ⟨g, hg, hgives⟩ | hput
    · exact .inl ⟨g, List.mem_cons_of_mem _ hg, hgives⟩
    · rcases Catalog.mem_put hput with rfl | hserved
      · exact .inl ⟨f, List.mem_cons_self, rfl, rfl⟩
      · exact .inr hserved

theorem mem_of_mem_resolved (h : resolved identities = .ok kept) (he : e ∈ kept) :
    e ∈ identities := by
  induction identities generalizing kept with
  | nil =>
    cases h
    exact he
  | cons first rest ih =>
    obtain ⟨id, identity⟩ := first
    unfold resolved at h
    obtain ⟨keep, -, h⟩ := bind_eq_ok.1 h
    obtain ⟨others, hothers, h⟩ := bind_eq_ok.1 h
    cases h
    split at he
    · rcases List.mem_cons.1 he with rfl | he
      · exact List.mem_cons_self
      · exact List.mem_cons_of_mem _ (ih hothers he)
    · exact List.mem_cons_of_mem _ (ih hothers he)

/-- The end of a run of the program writes what its round keeps. -/
theorem Round.written_of_kept (r : Round) (w : Surroundings) (verbose : Bool) (site : Cluster.Site)
    (client : Cluster.Client) (hmemory : client.cache = r.memory)
    (hsaved : w.writable fileName = r.saved) (hended : w.saveSecond = r.ended)
    (hresolved : resolved r.memory = .ok kept) :
    (CommandLine.kept w verbose (.cluster site client)).map Prod.snd =
      .ok (r.kept?.toList.map fun kept => (fileName, content kept r.ended)) := by
  unfold CommandLine.kept Round.kept?
  simp only [hmemory, hresolved, hsaved, hended]
  cases r.saved <;> rfl

/-- What a run writes, it has fetched or been served. -/
theorem Round.mem_of_kept (h : r.kept? = some kept) (he : e ∈ kept) :
    (∃ f ∈ r.fetches, f.Gives e) ∨ e ∈ r.served := by
  have hresolved : resolved r.memory = .ok kept := by
    unfold Round.kept? at h
    split at h
    · cases hresolved : resolved r.memory with
      | error f =>
        rw [hresolved] at h
        cases h
      | ok identities =>
        rw [hresolved] at h
        cases h
        rfl
    · cases h
  exact mem_of_mem_foldl_put r.fetches r.served (mem_of_mem_resolved hresolved he)

/-! ### What is served -/

/-- The file serves what the last run that wrote it kept, up to a lifetime after the writing. -/
theorem mem_of_load_left (hl : r.Legible) (hk : r.kept? = some kept) {verbose : Bool} {name : String}
    (h : (load verbose name (r.left file) now).2 = .ok served) (he : e ∈ served) :
    e ∈ kept ∧ now - r.ended ≤ lifetime := by
  have hleft : r.left file = .ofText (content kept r.ended) := by
    unfold Round.left
    rw [hk]
  rw [hleft] at h
  cases hjson : (FileState.ofText (content kept r.ended)).json? with
  | none =>
    rw [load_of_json?_eq_none verbose name now hjson] at h
    cases h
    cases he
  | some v =>
    rw [hl kept hk v hjson] at hjson
    rw [load_records verbose name now hjson] at h
    cases h
    split at he
    · cases he
    · exact ⟨he, by omega⟩

theorem Round.left_of_kept?_eq_none (h : r.kept? = none) (file : FileState) : r.left file = file := by
  unfold Round.left
  rw [h]

namespace History

theorem of_append (h : History (later ++ earlier) file) : ∃ file, History earlier file := by
  induction later generalizing file with
  | nil => exact ⟨file, h⟩
  | cons r rest ih =>
    cases h with
    | next before => exact ih before

/-- **The age of an identity that is served.**  It was fetched in some run, and since then not more
time has passed than a lifetime and the length of the run for that run and each later one. -/
theorem age_le (h : History rounds file) (hl : ∀ r ∈ rounds, r.Legible) {verbose : Bool} {name : String}
    (hload : (load verbose name file now).2 = .ok served) (he : e ∈ served) :
    ∃ later r earlier, rounds = later ++ r :: earlier ∧ ∃ f ∈ r.fetches, f.Gives e ∧
      now - f.time ≤ ((later ++ [r]).map Round.allowance).sum := by
  induction h generalizing now served verbose name with
  | start =>
    cases hload
    cases he
  | @next before file last hbefore _ hserved _ hlasts hwithin ih =>
    have hlater := fun r hr => hl r (List.mem_cons_of_mem _ hr)
    cases hk : last.kept? with
    | none =>
      rw [Round.left_of_kept?_eq_none hk] at hload
      obtain ⟨later, r, earlier, rfl, f, hf, hgives, hage⟩ := ih hlater hload he
      refine ⟨last :: later, r, earlier, rfl, f, hf, hgives, ?_⟩
      have hallowed : 0 ≤ last.allowance := by
        unfold Round.allowance lifetime
        omega
      rw [List.cons_append, List.map_cons, List.sum_cons]
      omega
    | some kept =>
      obtain ⟨hkept, hsince⟩ := mem_of_load_left (hl _ List.mem_cons_self) hk hload he
      rcases Round.mem_of_kept hk hkept with ⟨f, hf, hgives⟩ | hcarried
      · refine ⟨[], last, before, rfl, f, hf, hgives, ?_⟩
        have hfetched := (hwithin f hf).1
        rw [List.nil_append, List.map_singleton, List.sum_singleton, Round.allowance]
        omega
      · -- Carried over from the file: its age at the loading is what it had before.
        obtain ⟨later, r, earlier, rfl, f, hf, hgives, hage⟩ := ih hlater hserved hcarried
        refine ⟨last :: later, r, earlier, rfl, f, hf, hgives, ?_⟩
        rw [List.cons_append, List.map_cons, List.sum_cons, Round.allowance]
        omega

/-- With prompt writing, what the file serves was fetched within a lifetime. -/
theorem fetchedSince_of_load (h : History rounds file) (hl : ∀ r ∈ rounds, r.Legible)
    (hp : Prompt rounds) {verbose : Bool} {name : String}
    (hload : (load verbose name file now).2 = .ok served) (he : e ∈ served) :
    FetchedSince (now - lifetime) rounds e := by
  induction h with
  | start =>
    cases hload
    cases he
  | @next before file last _ _ _ _ _ _ ih =>
    cases hk : last.kept? with
    | none =>
      rw [Round.left_of_kept?_eq_none hk] at hload
      have hearlier := ih (fun r hr => hl r (List.mem_cons_of_mem _ hr)) hp.2 hload
      exact hearlier.mono le_rfl (List.subset_cons_self _ _)
    | some kept =>
      obtain ⟨hkept, hsince⟩ := mem_of_load_left (hl _ List.mem_cons_self) hk hload he
      exact (hp.1 kept hk e hkept).mono (by omega) (List.Subset.refl _)

/-- **What a run is served is not too old.**  It was fetched in an earlier run, and since then not more
time has passed than a lifetime and the length of the run for that run and each later one.  Where
identities are written as they are fetched, the last fetch lies no more than one lifetime back. -/
theorem served_within_lifetime (h : History (later ++ r :: earlier) file)
    (hl : ∀ p ∈ earlier, p.Legible) (he : e ∈ r.served) :
    (∃ after p before, earlier = after ++ p :: before ∧ ∃ f ∈ p.fetches, f.Gives e ∧
        r.began - f.time ≤ ((after ++ [p]).map Round.allowance).sum) ∧
      (Prompt earlier → FetchedSince (r.began - lifetime) earlier e) := by
  obtain ⟨_, hr⟩ := h.of_append
  cases hr with
  | next before verbose loads _ _ _ =>
    exact ⟨before.age_le hl loads he, fun hp => before.fetchedSince_of_load hl hp loads he⟩

end History

/-! ### One fetch and three runs -/

namespace Restamped

/-- An identity. -/
def ann : Json := .object [("name", .text "ann"), ("resolved", .bool true)]

/-- A run that fetches it. -/
def first : Round := ⟨1000, [], [⟨1000, "1", ann⟩], 1000, true⟩

/-- A run within a lifetime after that one, which writes it again. -/
def second : Round := ⟨1800, [("1", ann)], [], 1800, true⟩

/-- A run within a lifetime after the second one. -/
def third : Round := ⟨2600, [("1", ann)], [], 2600, true⟩

theorem plain_ann : ∀ e ∈ [("1", ann)], e.2.Plain 1000 := by
  refine List.forall_mem_singleton.2 (.object ?_ ?_)
  · show ["name", "resolved"].Nodup
    decide
  · exact List.forall_mem_cons.2 ⟨.text _ _, List.forall_mem_singleton.2 (.bool _ _)⟩

theorem json?_first : (FileState.ofText (content [("1", ann)] 1000)).json? =
    some (.object (records [("1", ann)] 1000)) :=
  json?_content (by decide) plain_ann (Json.small_of_natAbs_le (by decide))

theorem json?_second : (FileState.ofText (content [("1", ann)] 1800)).json? =
    some (.object (records [("1", ann)] 1800)) :=
  json?_content (by decide) plain_ann (Json.small_of_natAbs_le (by decide))

theorem first_legible : first.Legible := by
  intro kept hk v hv
  have hone : first.kept? = some [("1", ann)] := rfl
  obtain rfl : kept = [("1", ann)] := Option.some.inj (hk.symm.trans hone)
  exact Option.some.inj (hv.symm.trans json?_first)

theorem second_legible : second.Legible := by
  intro kept hk v hv
  have hone : second.kept? = some [("1", ann)] := rfl
  obtain rfl : kept = [("1", ann)] := Option.some.inj (hk.symm.trans hone)
  exact Option.some.inj (hv.symm.trans json?_second)

theorem history_first : History [first] (first.left .missing) :=
  .next .start false rfl (by simp) (by decide) (by simp [first])

theorem history_second : History [second, first] (second.left (first.left .missing)) :=
  .next history_first false (load_records false fileName 1800 json?_first)
    (by simp [first, second]) (by decide) (by simp [second])

theorem history_third :
    History [third, second, first] (third.left (second.left (first.left .missing))) :=
  .next history_second false (load_records false fileName 2600 json?_second)
    (by simp [second, third]) (by decide) (by simp [third])

theorem prompt_first : Prompt [first] := by
  refine ⟨?_, trivial⟩
  rintro _ ⟨⟩ e he
  cases List.mem_singleton.1 he
  exact ⟨first, List.mem_singleton_self _, _, List.mem_singleton_self _, ⟨rfl, rfl⟩, le_rfl⟩

/-- The second run is served an identity that was fetched within a lifetime. -/
theorem second_within_lifetime :
    (∃ f ∈ first.fetches, f.Gives ("1", ann) ∧ second.began - f.time ≤ first.allowance) ∧
      FetchedSince (second.began - lifetime) [first] ("1", ann) := by
  have hlegible : ∀ p ∈ [first], p.Legible := by
    intro p hp
    cases List.mem_singleton.1 hp
    exact first_legible
  have hhistory : History ([] ++ second :: [first]) (second.left (first.left .missing)) :=
    history_second
  obtain ⟨⟨after, p, before, hsplit, f, hf, hgives, hage⟩, hprompt⟩ :=
    History.served_within_lifetime hhistory hlegible (List.mem_singleton_self ("1", ann))
  refine ⟨?_, hprompt prompt_first⟩
  -- There is only one run before the second.
  obtain ⟨rfl, hsplit⟩ : after = [] ∧ [first] = p :: before := by
    cases after with
    | nil => exact ⟨rfl, hsplit⟩
    | cons _ _ => simp at hsplit
  obtain ⟨rfl, rfl⟩ := List.cons.inj hsplit
  rw [List.nil_append, List.map_singleton, List.sum_singleton] at hage
  exact ⟨f, hf, hgives, hage⟩

/-- **Writing an identity again makes it young again.**  The third run is served an identity, and
every fetch before it lies more than a lifetime back.  The second run, which was only served it, wrote
it with the second of the writing. -/
theorem served_past_lifetime :
    History [third, second, first] (third.left (second.left (first.left .missing))) ∧
      first.Legible ∧ second.Legible ∧ ("1", ann) ∈ third.served ∧
      (∀ r ∈ [second, first], ∀ f ∈ r.fetches, lifetime < third.began - f.time) ∧
      ∀ (w : Surroundings) (verbose : Bool) (site : Cluster.Site), w.writable fileName = true →
        w.saveSecond = 1800 →
        (CommandLine.kept w verbose (.cluster site (.ofCache second.served))).map Prod.snd =
          .ok [(fileName, content [("1", ann)] 1800)] := by
  refine ⟨history_third, first_legible, second_legible, List.mem_singleton_self _, ?_, ?_⟩
  · simp [first, second, third, lifetime]
  · intro w verbose site hwritable hended
    exact second.written_of_kept w verbose site (.ofCache second.served) rfl hwritable hended rfl

end Restamped

end IdentityStore

end UsageLedger
