/-
UsageLedger/Proofs/IdentityStore/Loading.lean

What comes out of a file of identities, whatever stands in it.  A file that is missing or
cannot be decoded serves nothing.  Any other file has to be an object of records, each of
which says when it was written or says nothing of it: then loading serves the fresh ones
among them, in their order.  Every other value makes loading fail, and only by a shape
that was not expected (`load_any_file`).

How old a record may be is stated in exact numbers (`isFresh`).  Of a time that is not a
whole number the age is rounded before it is compared, which leaves it `2 ^ -44` seconds
more; a time that is no number has no age that could be too high.  The clock is read in
whole seconds, which are exact as double precision numbers (`isExact_wholeSeconds`).
-/
import Mathlib.Algebra.Order.Ring.Rat
import UsageLedger.CommandLine.Run
import UsageLedger.Proofs.Json.Keyed
import UsageLedger.Proofs.Number.Nearest

namespace UsageLedger.IdentityStore

open Number

variable {now : ℤ} {record identity v : Json} {written : Quantity} {entries : Catalog String Json}
  {state : FileState}

/-- A fault that only data of an unexpected shape cause. -/
def IsShapeFault (f : Fault) : Prop := f = .noMember ∨ f = .wrongKind

/-- What a clock shows as a double precision number is exact in whole seconds. -/
theorem isExact_wholeSeconds (negative : Bool) {m : ℕ} {e : ℤ} (hm : m < 2 ^ 53) (he : e ≤ 971) :
    Binary64.IsExact (CommandLine.wholeSeconds (.real (.finite negative m e))) :=
  Binary64.isExact_of_truncate? hm he rfl

/-! ### Records -/

/-- What a record says: when it was written, and the identity.  A record that does not say when was
written in second zero. -/
def read? : Json → Option (Quantity × Json)
  | .object members =>
    ((Catalog.find? "timestamp" members).getD (.int 0)).quantity?.map fun written =>
      (written, (Catalog.find? "identity" members).getD (.object []))
  | _ => none

/-- Whether what was written at a time may still be served. -/
def isFresh (now : ℤ) : Quantity → Bool
  | .whole written => now - written ≤ lifetime
  | .real .nan => true
  | .real (.infinite negative) => !negative
  | .real (.finite negative m e) =>
    let written := if negative then -((m : ℚ) * 2 ^ e) else (m : ℚ) * 2 ^ e
    now - written ≤ lifetime + 2 ^ (-44 : ℤ)

/-- Every record has an age, which is above the lifetime unless the record is fresh. -/
theorem exists_age (hclock : Binary64.IsExact now) (written : Quantity) :
    ∃ age, (Quantity.whole now).sub? written = some age ∧
      age.above (.whole lifetime) = !isFresh now written := by
  obtain ⟨x, hx, hvalue⟩ := hclock
  have hsub (y : Binary64) : (Quantity.whole now).sub? (.real y) = some (.real (x.sub y)) := by
    unfold Quantity.sub? Quantity.toBinary64?
    dsimp only
    rw [hx]
    rfl
  cases written with
  | whole written =>
    refine ⟨.whole (now - written), rfl, ?_⟩
    rw [Quantity.above_whole, isFresh, ← decide_not]
    exact decide_eq_decide.2 not_le.symm
  | real y =>
    refine ⟨_, hsub y, ?_⟩
    cases y with
    | nan => cases x <;> rfl
    | infinite negative =>
      cases x with
      | finite => cases negative <;> rfl
      | infinite => cases hvalue
      | nan => cases hvalue
    | finite negative m e =>
      have hwritten := Binary64.toRat?_finite negative m e
      obtain ⟨zeroNegative, hage⟩ := Binary64.exists_sub_eq_ofRat hvalue hwritten
      have hlifetime : lifetime = (900 : ℕ) := rfl
      have hslack : ((9 : ℕ) : ℤ) - 53 = -44 := rfl
      rw [hage, hlifetime, @Binary64.above_ofRat 900 9 _ _ (by decide) (by decide) (by decide),
        hslack, isFresh, hlifetime, Int.cast_natCast, ← decide_not]
      exact decide_eq_decide.2 not_le.symm

theorem isExpired_eq (hclock : Binary64.IsExact now) (hv : v.quantity? = some written) :
    isExpired now v = .ok (!isFresh now written) := by
  obtain ⟨age, hage, habove⟩ := exists_age hclock written
  have hasked : v.asQuantity = .ok written := by
    rw [Json.asQuantity, hv]
  unfold isExpired
  rw [hasked]
  dsimp only [bind, Except.bind]
  rw [hage, ← habove]
  rfl

/-! ### Entries -/

/-- The identities among some records that are fresh. -/
def served (now : ℤ) (entries : Catalog String Json) : Catalog String Json :=
  entries.filterMap fun e => (read? e.2).bind fun r =>
    if isFresh now r.1 then some (e.1, r.2) else none

theorem mem_served {e : String × Json} :
    e ∈ served now entries ↔ ∃ record written,
      (e.1, record) ∈ entries ∧ read? record = some (written, e.2) ∧ isFresh now written = true := by
  obtain ⟨id, identity⟩ := e
  rw [served, List.mem_filterMap]
  constructor
  · rintro ⟨⟨id', record⟩, hmem, hsome⟩
    obtain ⟨⟨written, identity'⟩, hread, hfresh⟩ := Option.bind_eq_some_iff.1 hsome
    rw [Option.ite_none_right_eq_some] at hfresh
    obtain ⟨hfresh, heq⟩ := hfresh
    cases heq
    exact ⟨record, written, hmem, hread, hfresh⟩
  · rintro ⟨record, written, hmem, hread, hfresh⟩
    refine ⟨(id, record), hmem, ?_⟩
    rw [hread, Option.bind_some, if_pos hfresh]

/-- What is served keeps the order of the entries. -/
theorem keys_served (now : ℤ) (entries : Catalog String Json) :
    (served now entries).keys.Sublist entries.keys := by
  induction entries with
  | nil => exact List.Sublist.refl []
  | cons e rest ih =>
    unfold served at ih ⊢
    rw [List.filterMap_cons]
    split
    · exact ih.trans (List.sublist_cons_self _ _)
    · rename_i kept hkept
      obtain ⟨r, -, hfresh⟩ := Option.bind_eq_some_iff.1 hkept
      rw [Option.ite_none_right_eq_some] at hfresh
      rw [← Option.some.inj hfresh.2]
      exact ih.cons_cons e.1

theorem served_cons {id : String} (hread : read? record = some (written, identity))
    (entries : Catalog String Json) :
    served now ((id, record) :: entries) =
      if isFresh now written then (id, identity) :: served now entries else served now entries := by
  unfold served
  rw [List.filterMap_cons, hread, Option.bind_some]
  by_cases hfresh : isFresh now written <;> simp [hfresh]

/-- What loading finds in a record that can be read. -/
theorem found_of_read? (hclock : Binary64.IsExact now) (hread : read? record = some (written, identity)) :
    record.memberOr "timestamp" (.int 0) >>= isExpired now = .ok (!isFresh now written) ∧
      record.memberOr "identity" (.object []) = .ok identity := by
  cases record with
  | object members =>
    obtain ⟨_, hwritten, heq⟩ := Option.map_eq_some_iff.1 hread
    cases heq
    exact ⟨isExpired_eq hclock hwritten, rfl⟩
  | _ => cases hread

/-- A record that cannot be read has a shape that records do not have. -/
theorem fault_of_read? (now : ℤ) (hread : read? record = none) :
    ∃ f, record.memberOr "timestamp" (.int 0) >>= isExpired now = .error f ∧ IsShapeFault f := by
  cases record with
  | object members =>
    refine ⟨.wrongKind, ?_, .inr rfl⟩
    have hwritten := Option.map_eq_none_iff.1 hread
    show isExpired now ((Catalog.find? "timestamp" members).getD (.int 0)) = _
    unfold isExpired Json.asQuantity
    rw [hwritten]
    rfl
  | _ => exact ⟨.noMember, rfl, .inl rfl⟩

theorem current_cons (now : ℤ) (id : String) (record : Json) (rest : Catalog String Json) :
    current now ((id, record) :: rest) = (record.memberOr "timestamp" (.int 0) >>= isExpired now) >>=
      fun expired => record.memberOr "identity" (.object []) >>= fun identity =>
        current now rest >>= fun r =>
          pure (if expired then (r.1, r.2 + 1) else ((id, identity) :: r.1, r.2)) := by
  rw [bind_assoc]
  rfl

/-- Records that can all be read are served as far as they are fresh. -/
theorem current_of_read? (hclock : Binary64.IsExact now) (h : ∀ e ∈ entries, (read? e.2).isSome) :
    ∃ count, current now entries = .ok (served now entries, count) := by
  induction entries with
  | nil => exact ⟨0, rfl⟩
  | cons e rest ih =>
    obtain ⟨id, record⟩ := e
    obtain ⟨hfirst, hrest⟩ := List.forall_mem_cons.1 h
    obtain ⟨⟨written, identity⟩, hread⟩ := Option.isSome_iff_exists.1 hfirst
    obtain ⟨hexpired, hidentity⟩ := found_of_read? hclock hread
    obtain ⟨count, hcurrent⟩ := ih hrest
    rw [current_cons, hexpired, hidentity, hcurrent, served_cons hread]
    by_cases hfresh : isFresh now written
    · exact ⟨count, by simp [hfresh, bind, Except.bind, pure, Except.pure]⟩
    · exact ⟨count + 1, by simp [hfresh, bind, Except.bind, pure, Except.pure]⟩

/-- One record that cannot be read makes all of them fail. -/
theorem current_of_not_read? (hclock : Binary64.IsExact now) (h : ¬ ∀ e ∈ entries, (read? e.2).isSome) :
    ∃ f, current now entries = .error f ∧ IsShapeFault f := by
  induction entries with
  | nil => exact absurd (List.forall_mem_nil _) h
  | cons e rest ih =>
    obtain ⟨id, record⟩ := e
    rw [current_cons]
    cases hread : read? record with
    | none =>
      obtain ⟨f, hfault, hshape⟩ := fault_of_read? now hread
      exact ⟨f, by rw [hfault]; rfl, hshape⟩
    | some r =>
      obtain ⟨hexpired, hidentity⟩ := found_of_read? hclock hread
      have hrest : ¬ ∀ e ∈ rest, (read? e.2).isSome := fun hrest =>
        h (List.forall_mem_cons.2 ⟨by rw [hread]; rfl, hrest⟩)
      obtain ⟨f, hfault, hshape⟩ := ih hrest
      exact ⟨f, by rw [hexpired, hidentity, hfault]; rfl, hshape⟩

/-! ### Files -/

/-- What a file says; one that is missing or cannot be decoded says nothing. -/
def contents (state : FileState) : Json := state.json?.getD (.object [])

/-- Whether a value is an object of records that can be read. -/
def Legible (v : Json) : Prop := ∃ entries, v = .object entries ∧ ∀ e ∈ entries, (read? e.2).isSome

theorem load_contents (verbose : Bool) (file : String) (state : FileState) (now : ℤ) :
    (load verbose file state now).2 = ((contents state).members >>= current now).map Prod.fst := by
  unfold load contents
  cases hjson : state.json? with
  | none => split <;> rfl
  | some v =>
    have hpresent : state.isPresent = true := by cases state <;> trivial
    rw [hpresent]
    simp only [Bool.not_true, Bool.false_eq_true, if_false, Option.getD_some]
    show _ = (v.members.bind (current now)).map Prod.fst
    cases v.members.bind (current now) <;> rfl

theorem load_of_contents (verbose : Bool) (file : String) (now : ℤ) (h : contents state = .object entries) :
    (load verbose file state now).2 = (current now entries).map Prod.fst := by
  rw [load_contents, h]
  rfl

theorem keyed_contents (state : FileState) : (contents state).Keyed := by
  unfold contents
  cases hjson : state.json? with
  | none => exact .object .nil (fun _ hv => absurd hv List.not_mem_nil)
  | some v => exact FileState.keyed_of_json? hjson

/-- **Loading any file.**  An object of records that can be read, and a file that says nothing, serve
exactly the identities of fresh records, each id once and in the order of the file.  From any other
value nothing is served: it has a shape that loading does not expect. -/
theorem load_any_file (hclock : Binary64.IsExact now) (verbose : Bool) (file : String)
    (state : FileState) :
    (∀ entries : Catalog String Json, contents state = .object entries →
        (∀ e ∈ entries, (read? e.2).isSome) →
        (load verbose file state now).2 = .ok (served now entries) ∧
        (served now entries).keys.Sublist entries.keys ∧ (served now entries).keys.Nodup ∧
        ∀ e, e ∈ served now entries ↔ ∃ record written,
          (e.1, record) ∈ entries ∧ read? record = some (written, e.2) ∧ isFresh now written = true) ∧
      (¬ Legible (contents state) →
        ∃ f, (load verbose file state now).2 = .error f ∧ IsShapeFault f) := by
  refine ⟨fun entries hcontents hread => ?_, fun hlegible => ?_⟩
  · obtain ⟨count, hcurrent⟩ := current_of_read? hclock hread
    have hkeys : entries.keys.Nodup := (hcontents ▸ keyed_contents state).nodup_keys
    refine ⟨?_, keys_served now entries, (keys_served now entries).nodup hkeys, fun e => mem_served⟩
    rw [load_of_contents verbose file now hcontents, hcurrent]
    rfl
  · cases hcontents : contents state with
    | object entries =>
      have hread : ¬ ∀ e ∈ entries, (read? e.2).isSome := fun hread => hlegible ⟨entries, hcontents, hread⟩
      obtain ⟨f, hfault, hshape⟩ := current_of_not_read? hclock hread
      refine ⟨f, ?_, hshape⟩
      rw [load_of_contents verbose file now hcontents, hfault]
      rfl
    | _ =>
      rw [load_contents, hcontents]
      exact ⟨.noMember, rfl, .inl rfl⟩

/-- A file of two records; the second one does not say when it was written. -/
def handwritten : String :=
  "\x7b\"1\":\x7b\"identity\":\x7b\"name\":\"ann\"\x7d,\"timestamp\":999100\x7d,\"2\":\x7b\x7d\x7d"

/-- What the two records are. -/
def handwrittenRecords : Catalog String Json :=
  [("1", .object [("identity", .object [("name", .text "ann")]), ("timestamp", .int 999100)]),
    ("2", .object [])]

theorem contents_handwritten : contents (.ofText handwritten) = .object handwrittenRecords := by
  unfold contents
  rw [FileState.json?_ofText (by decide +kernel)]
  rfl

/-- Half a second after the second in which the first of the records is as old as a record may be. -/
def halfPast : Quantity := .real (.finite false 2000001 (-1))

/-- The first of two records is as old as a record may be, the second one is too old. -/
theorem load_handwritten :
    CommandLine.wholeSeconds halfPast = 1000000 ∧ Binary64.IsExact (CommandLine.wholeSeconds halfPast) ∧
      contents (.ofText handwritten) = .object handwrittenRecords ∧
      (∀ e ∈ handwrittenRecords, (read? e.2).isSome) ∧
      (load false fileName (.ofText handwritten) (CommandLine.wholeSeconds halfPast)).2 =
        .ok [("1", .object [("name", .text "ann")])] := by
  have hsecond : CommandLine.wholeSeconds halfPast = 1000000 := rfl
  have hclock : Binary64.IsExact (CommandLine.wholeSeconds halfPast) :=
    isExact_wholeSeconds false (by decide) (by decide)
  have hread : ∀ e ∈ handwrittenRecords, (read? e.2).isSome := by
    simp [handwrittenRecords, read?, Catalog.find?, Json.quantity?]
  have hload := (load_any_file hclock false fileName (.ofText handwritten)).1 handwrittenRecords
    contents_handwritten hread
  exact ⟨hsecond, hclock, contents_handwritten, hread, hload.1⟩

/-- **A list is not taken for an empty file.** -/
theorem load_broken_by_list : (load false fileName (.ofText "[]") 1000000).2 = .error .noMember := by
  have hjson : (FileState.ofText "[]").json? = some (.list []) := by
    rw [FileState.json?_ofText (by decide +kernel)]
    rfl
  rw [load_contents, contents, hjson]
  rfl

end UsageLedger.IdentityStore
