/-
UsageLedger/Proofs/Cluster/Names.lean

The names that the entries of a walk wait for.  The name that goes with an id is
`Client.nameOf`, which looks only at what the client knew in the beginning and at
what the site replies: it is the same for every entry, whenever it asks.

A side of an entry (its owner or its group) moves towards that name.  `Side.Fits`
says how far it has come; it is kept while the client goes on (`Client.Grows`), and
a turn of the side itself brings it nearer (`Side.Fits.turn`), at the price of at
most two requests that a new lookup may make.
-/
import UsageLedger.Cluster.Walk
import UsageLedger.Proofs.Cluster.Lookup

namespace UsageLedger.Cluster

variable {site : Site} {wanted : String → Prop} {c₀ c c' c'' : Client} {requests : List Request}
  {l : Lookup} {identity : Json} {id : Json}

/-! ### What a client keeps -/

namespace Client

/-- A client that has gone on: what it knew it knows, and what it held it holds. -/
structure Grows (c c' : Client) : Prop where
  known : ∀ id identity, c.cache.find? id = some identity → c'.cache.find? id = some identity
  holds : ∀ id, c.Holds id → c'.Holds id

theorem Grows.refl (c : Client) : c.Grows c := ⟨fun _ _ h => h, fun _ h => h⟩

theorem Grows.trans (h : c.Grows c') (h' : c'.Grows c'') : c.Grows c'' :=
  ⟨fun id identity hk => h'.known id identity (h.known id identity hk),
    fun id hh => h'.holds id (h.holds id hh)⟩

/-- Only the requests have changed. -/
theorem grows_send (site : Site) (c : Client) (r : Request) : c.Grows (c.send site r).1 :=
  ⟨fun _ _ h => h, fun _ h => h⟩

theorem grows_ask (c : Client) (id : String) (hf : c.failed = []) : c.Grows (c.ask id) := by
  obtain ⟨_, he⟩ | ⟨_, _, he⟩ | ⟨_, _, he⟩ := ask_cases c id hf <;> rw [he]
  · exact ⟨fun _ _ h => h, fun _ h => h⟩
  · exact .refl c
  · refine ⟨fun _ _ h => h, fun id' h => h.imp_right ?_⟩
    rintro ⟨l, hl, hid⟩
    exact ⟨l, List.mem_append_left _ hl, hid⟩

theorem grows_advance (h : c.Reached site wanted c₀ requests) {i : ℕ}
    (hl : c.underWay[i]? = some l) (hi : site.resolve l.id = .ok identity) :
    c.Grows (c.advance site i) := by
  have hperm := perm_cons_eraseIdx hl
  obtain ⟨_, hn, _, href, _⟩ := h.of_underWay (hperm.mem_iff.2 List.mem_cons_self)
  obtain ⟨_, _, he⟩ | ⟨_, he⟩ := c.advance_cases hl href hi <;> rw [he]
  · refine ⟨fun _ _ hk => hk, fun id hh => hh.imp_right ?_⟩
    rintro ⟨l', hl', hid⟩
    have hset := set_perm_cons_eraseIdx hl ⟨l.id, .finding⟩
    rcases List.mem_cons.1 (hperm.mem_iff.1 hl') with rfl | hl'
    · exact ⟨⟨l'.id, .finding⟩, hset.mem_iff.2 List.mem_cons_self, hid⟩
    · exact ⟨l', hset.mem_iff.2 (List.mem_cons_of_mem _ hl'), hid⟩
  · -- The id that is learned was not known before.
    have hput (id : String) := Catalog.find?_put l.id id identity c.cache
    refine ⟨fun id known hk => ?_, fun id hh => ?_⟩
    · have hne : l.id ≠ id := by
        rintro rfl
        rw [hn] at hk
        cases hk
      exact (hput id).trans ((if_neg hne).trans hk)
    · by_cases hid : l.id = id
      · exact .inl ⟨identity, (hput id).trans (if_pos hid)⟩
      · refine hh.imp ?_ ?_
        · rintro ⟨known, hk⟩
          exact ⟨known, (hput id).trans ((if_neg hid).trans hk)⟩
        · rintro ⟨l', hl', rfl⟩
          rcases List.mem_cons.1 (hperm.mem_iff.1 hl') with rfl | hl'
          · exact absurd rfl hid
          · exact ⟨l', hl', rfl⟩

/-! ### Requests that lookups may still make -/

theorem left_ask (c : Client) (id : String) (hf : c.failed = []) : (c.ask id).left ≤ c.left + 2 := by
  obtain ⟨_, he⟩ | ⟨_, _, he⟩ | ⟨_, _, he⟩ := ask_cases c id hf <;> rw [he]
  · exact Nat.le_add_right _ _
  · exact Nat.le_add_right _ _
  · simp [left, Lookup.left]

theorem left_advance_lt (h : c.Reached site wanted c₀ requests) {i : ℕ}
    (hl : c.underWay[i]? = some l) (hi : site.resolve l.id = .ok identity) :
    (c.advance site i).left < c.left := by
  have hperm := perm_cons_eraseIdx hl
  obtain ⟨_, _, _, href, _⟩ := h.of_underWay (hperm.mem_iff.2 List.mem_cons_self)
  have hbefore : c.left = l.left + ((c.underWay.eraseIdx i).map Lookup.left).sum :=
    (hperm.map Lookup.left).sum_eq
  obtain ⟨hs, _, he⟩ | ⟨_, he⟩ := c.advance_cases hl href hi <;> rw [he, hbefore]
  · have hset : ((c.underWay.set i ⟨l.id, .finding⟩).map Lookup.left).sum =
        1 + ((c.underWay.eraseIdx i).map Lookup.left).sum :=
      ((set_perm_cons_eraseIdx hl ⟨l.id, .finding⟩).map Lookup.left).sum_eq
    have htwo : l.left = 2 := by rw [Lookup.left, hs]
    show ((c.underWay.set i ⟨l.id, .finding⟩).map Lookup.left).sum < _
    omega
  · have hpos : 0 < l.left := by
      unfold Lookup.left
      cases l.stage <;> decide
    show ((c.underWay.eraseIdx i).map Lookup.left).sum < _
    omega

/-! ### Names -/

/-- The name of the identity with an id. -/
def nameUnder (site : Site) (c : Client) (id : String) : Except Fault Json :=
  (c.identityOf site id).bind displayName

/-- The name that goes with the id that an entry gives; without an id there is no name. -/
def nameOf (site : Site) (c : Client) (id : Json) : Except Fault Json :=
  if id.isPresent then c.nameUnder site id.display else .ok .null

theorem nameOf_of_not_isPresent (site : Site) (c : Client) (h : id.isPresent = false) :
    c.nameOf site id = .ok .null := by
  simp [nameOf, h]

theorem nameOf_of_isPresent (site : Site) (c : Client) (h : id.isPresent = true) :
    c.nameOf site id = c.nameUnder site id.display := by
  simp [nameOf, h]

/-- What a client knows about an id gives the name that goes with it. -/
theorem Reached.displayName_eq (h : c.Reached site wanted c₀ requests) (hp : id.isPresent = true)
    (hk : c.cache.find? id.display = some identity) : displayName identity = c₀.nameOf site id := by
  rw [nameOf_of_isPresent site c₀ hp, nameUnder, h.identityOf_eq hk]
  rfl

end Client

/-! ### Sides -/

namespace Side

/-- How many turns a side may take, and with the lookup that it may begin. -/
def work : Side → ℕ
  | unasked _ => 4
  | asked (.awaited _) => 1
  | asked (.known _) => 0

/-- How far a side has come to the name that goes with an id: it has not asked, the client holds what it
asked for, or it has the name. -/
def Fits (site : Site) (c₀ c : Client) (id : Json) : Side → Prop
  | unasked id' => id' = id
  | asked (.awaited s) => id.isPresent = true ∧ s = id.display ∧ c.Holds s
  | asked (.known name) => c₀.nameOf site id = .ok name ∧
      (id.isPresent = true → ∃ identity, c.cache.find? id.display = some identity)

variable {side : Side}

/-- A side loses nothing while the client goes on. -/
theorem Fits.grow (h : side.Fits site c₀ c id) (hg : c.Grows c') : side.Fits site c₀ c' id := by
  cases side with
  | unasked id' => exact h
  | asked naming =>
    cases naming with
    | awaited s =>
      obtain ⟨hp, hs, hh⟩ := h
      exact ⟨hp, hs, hg.holds s hh⟩
    | known name =>
      refine ⟨h.1, fun hp => ?_⟩
      obtain ⟨identity, hk⟩ := h.2 hp
      exact ⟨identity, hg.known _ _ hk⟩

/-- A name that is there is the one that goes with the id, and the client knows the identity. -/
theorem Fits.of_name? (h : side.Fits site c₀ c id) {name : Json} (hn : side.name? = some name) :
    c₀.nameOf site id = .ok name ∧
      (id.isPresent = true → ∃ identity, c.cache.find? id.display = some identity) := by
  cases side with
  | unasked id' => cases hn
  | asked naming =>
    cases naming with
    | awaited s => cases hn
    | known name' =>
      cases hn
      exact h

/-- A side that has no name may take a turn, unless the lookup that it waits for is under way. -/
theorem Fits.sideTurn?_isSome (h : side.Fits site c₀ c id) (hn : side.name? = none)
    (hu : c.underWay = []) : (Walk.sideTurn? c side).isSome = true := by
  cases side with
  | unasked id' => rfl
  | asked naming =>
    cases naming with
    | known name => cases hn
    | awaited s =>
      obtain ⟨-, -, ⟨identity, hk⟩ | ⟨l, hl, -⟩⟩ := h
      · simp [Walk.sideTurn?, Client.standing, hk]
      · rw [hu] at hl
        cases hl

/-- Taking note of an identity gives the name that goes with it. -/
theorem poll_known (hc : c.Reached site wanted c₀ requests) (hp : id.isPresent = true)
    (hk : c.cache.find? id.display = some identity) {name : Json} (hname : c₀.nameOf site id = .ok name) :
    (Naming.awaited id.display).poll c = .ok (.known name) := by
  simp [Naming.poll, Client.standing, hk, hc.displayName_eq hp hk, hname, Except.map]

/-- What asking brings: the name, or a lookup to wait for. -/
theorem fits_ofId (hc : c.Reached site wanted c₀ requests) (hw : id.isPresent = true → wanted id.display)
    {name : Json} (hname : c₀.nameOf site id = .ok name) :
    (Naming.ofId c id).1.Reached site wanted c₀ requests ∧ c.Grows (Naming.ofId c id).1 ∧
      ∃ naming, (Naming.ofId c id).2 = .ok naming ∧
        (asked naming).Fits site c₀ (Naming.ofId c id).1 id ∧
        (asked naming).work + (Naming.ofId c id).1.left < 4 + c.left := by
  unfold Naming.ofId
  by_cases hp : id.isPresent = true
  · rw [if_pos hp]
    have hc' := hc.ask (hw hp)
    have hleft := Client.left_ask c id.display hc.failed
    refine ⟨hc', Client.grows_ask c _ hc.failed, ?_⟩
    cases hk : (c.ask id.display).cache.find? id.display with
    | some identity =>
      refine ⟨.known name, poll_known hc' hp hk hname, ⟨hname, fun _ => ⟨identity, hk⟩⟩, ?_⟩
      show 0 + (c.ask id.display).left < _
      omega
    | none =>
      have hpoll : (Naming.awaited id.display).poll (c.ask id.display) = .ok (.awaited id.display) := by
        simp [Naming.poll, Client.standing, hk, hc'.failed, Catalog.find?]
      refine ⟨.awaited id.display, hpoll, ⟨hp, rfl, Client.holds_ask hc.failed _⟩, ?_⟩
      show 1 + (c.ask id.display).left < _
      omega
  · rw [if_neg hp]
    have hp : id.isPresent = false := by simpa using hp
    have hnone := Client.nameOf_of_not_isPresent site c₀ hp
    have hknown (h : id.isPresent = true) : ∃ identity, c.cache.find? id.display = some identity := by
      rw [hp] at h
      cases h
    refine ⟨hc, .refl c, .known .null, rfl, ⟨hnone, hknown⟩, ?_⟩
    show 0 + c.left < _
    omega

variable {r : Except Fault Side}

/-- What a turn of a side brings, where the id has a name: no fault, and the side nearer to the name. -/
theorem Fits.turn (h : side.Fits site c₀ c id) (hc : c.Reached site wanted c₀ requests)
    (hw : id.isPresent = true → wanted id.display) (hname : ∃ name, c₀.nameOf site id = .ok name)
    (ht : Walk.sideTurn? c side = some (c', r)) :
    c'.Reached site wanted c₀ requests ∧ c.Grows c' ∧
      ∃ side', r = .ok side' ∧ side'.Fits site c₀ c' id ∧
        side'.work + c'.left < side.work + c.left := by
  obtain ⟨name, hname⟩ := hname
  cases side with
  | unasked id' =>
    obtain rfl : id' = id := h
    obtain ⟨rfl, rfl⟩ : (Naming.ofId c id').1 = c' ∧ (Naming.ofId c id').2.map asked = r := by
      simpa [Walk.sideTurn?] using ht
    obtain ⟨hreached, hgrows, naming, hnaming, hfits, hwork⟩ := fits_ofId hc hw hname
    refine ⟨hreached, hgrows, asked naming, ?_, hfits, hwork⟩
    rw [hnaming]
    rfl
  | asked naming =>
    cases naming with
    | known name' => cases ht
    | awaited s =>
      obtain ⟨hp, rfl, hh⟩ := h
      cases hk : c.cache.find? id.display with
      | none => simp [Walk.sideTurn?, Client.standing, hk, hc.failed, Catalog.find?] at ht
      | some identity =>
        have hstanding : c.standing id.display = .known identity := by
          simp [Client.standing, hk]
        simp only [Walk.sideTurn?, hstanding, poll_known hc hp hk hname, Option.some.injEq,
          Prod.mk.injEq] at ht
        obtain ⟨rfl, rfl⟩ := ht
        refine ⟨hc, .refl c, asked (.known name), rfl, ⟨hname, fun _ => ⟨identity, hk⟩⟩, ?_⟩
        show 0 + c.left < 1 + c.left
        omega

end Side

end UsageLedger.Cluster
