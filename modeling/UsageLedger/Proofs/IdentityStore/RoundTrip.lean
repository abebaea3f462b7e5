/-
UsageLedger/Proofs/IdentityStore/RoundTrip.lean

What is saved of the identities is loaded again: all of them, in their order, up to a
lifetime after the saving, and none of them later (`load_content`).

Both times are readings of the clock without their fractions.  The fraction is dropped
toward zero, so the difference of two readings before and after second zero can be one
less than that of the seconds they lie in (`load_content_across_zero`).
-/
import Mathlib.Data.Rat.Floor
import Mathlib.Tactic.Linarith
import UsageLedger.CommandLine.Run
import UsageLedger.Proofs.IdentityStore.Loading
import UsageLedger.Proofs.Json.RoundTrip
import UsageLedger.Proofs.Number.Finite

namespace UsageLedger.IdentityStore

open Number CommandLine

variable {identities : Catalog String Json} {state : FileState} {v : Json} {depth : ℕ} {now written : ℤ}

/-! ### Loading what was written -/

/-- The members of a file of identities. -/
def records (identities : Catalog String Json) (written : ℤ) : Catalog String Json :=
  identities.map fun e => (e.1, record written e.2)

theorem isExpired_int (now written : ℤ) :
    isExpired now (.int written) = .ok (decide (lifetime < now - written)) := by
  rw [← Quantity.above_whole]
  rfl

/-- Records that were written together are too old together. -/
theorem current_records (identities : Catalog String Json) (now written : ℤ) :
    current now (records identities written) =
      .ok (if lifetime < now - written then ([], identities.length) else (identities, 0)) := by
  induction identities with
  | nil => simp [records, current]
  | cons e rest ih =>
    have htime : (record written e.2).memberOr "timestamp" (.int 0) = .ok (.int written) := rfl
    have hidentity : (record written e.2).memberOr "identity" (.object []) = .ok e.2 := rfl
    simp only [records, List.map_cons, current] at ih ⊢
    rw [htime, hidentity, ih]
    simp only [Except.bind, bind, isExpired_int]
    by_cases h : lifetime < now - written <;> simp [h, pure, Except.pure]

/-- A file of identities serves all of them up to a lifetime after its writing, and none later. -/
theorem load_records (verbose : Bool) (name : String) (now : ℤ)
    (h : state.json? = some (.object (records identities written))) :
    (load verbose name state now).2 =
      .ok (if lifetime < now - written then [] else identities) := by
  have hcontents : contents state = .object (records identities written) := by
    rw [contents, h]
    rfl
  rw [load_of_contents verbose name now hcontents, current_records]
  by_cases h : lifetime < now - written <;> simp [h, Except.map]

/-- A file that cannot be read serves nothing. -/
theorem load_of_json?_eq_none (verbose : Bool) (name : String) (now : ℤ) (h : state.json? = none) :
    (load verbose name state now).2 = .ok [] := by
  rw [load_contents, contents, h]
  rfl

/-! ### The file -/

theorem keys_records (identities : Catalog String Json) (written : ℤ) :
    (records identities written).keys = identities.keys := by
  unfold records Catalog.keys
  rw [List.map_map]
  rfl

theorem plain_record (h : v.Plain depth) (hwritten : written.natAbs < 10 ^ maxDigits) :
    (record written v).Plain (depth + 1) := by
  refine .object ?_ (List.forall_mem_cons.2 ⟨h, List.forall_mem_cons.2 ⟨.int depth hwritten, by simp⟩⟩)
  show ["identity", "timestamp"].Nodup
  decide

/-- The file holds the records that were written. -/
theorem json?_content (hkeys : identities.keys.Nodup) (hplain : ∀ e ∈ identities, e.2.Plain 1000)
    (hwritten : written.natAbs < 10 ^ maxDigits) :
    (FileState.ofText (content identities written)).json? = some (.object (records identities written)) := by
  have hrecords : (Json.object (records identities written)).Plain 1002 := by
    refine .object (keys_records identities written ▸ hkeys) fun m hm => ?_
    obtain ⟨e, he, rfl⟩ := List.mem_map.1 hm
    exact plain_record (hplain e he) hwritten
  exact FileState.json?_indented (hrecords.mono (by decide))

/-! ### The clock -/

/-- The fraction of a reading is dropped toward zero. -/
theorem wholeSeconds_eq {t : Quantity} {q : ℚ} (ht : t.value? = some q) :
    wholeSeconds t = if 0 ≤ q then ⌊q⌋ else ⌈q⌉ := by
  cases t with
  | whole n =>
    cases ht
    show n = _
    rw [Int.floor_intCast, Int.ceil_intCast, ite_self]
  | real x =>
    cases x with
    | infinite negative => cases ht
    | nan => cases ht
    | finite negative m e =>
      have hvalue : (m : ℚ) * 2 ^ e = (m * 2 ^ e.toNat : ℕ) / (2 ^ (-e).toNat : ℕ) := by
        rw [Binary64.two_zpow]
        push_cast
        ring
      have hfloor : ⌊(m : ℚ) * 2 ^ e⌋ = (m * 2 ^ e.toNat / 2 ^ (-e).toNat : ℕ) := by
        rw [hvalue, Rat.floor_natCast_div_natCast, Int.natCast_ediv]
      have hnonneg : (0 : ℚ) ≤ m * 2 ^ e := by positivity
      rw [Quantity.value?, Binary64.toRat?_finite] at ht
      cases ht
      cases negative with
      | false =>
        rw [if_neg Bool.false_ne_true, if_pos hnonneg, hfloor]
        rfl
      | true =>
        have htruncated : wholeSeconds (.real (.finite true m e)) = -⌊(m : ℚ) * 2 ^ e⌋ := by
          rw [hfloor]
          rfl
        rw [if_pos rfl, htruncated, Int.ceil_neg]
        split
        · -- Only zero is neither above nor below.
          rename_i hzero
          have hzero : (m : ℚ) * 2 ^ e = 0 := by linarith
          simp [hzero]
        · rfl

/-- A reading of the clock: a double precision number, or a whole number that is not too long. -/
def IsReading : Quantity → Prop
  | .whole n => n.natAbs < 10 ^ maxDigits
  | .real (.finite _ m e) => m < 2 ^ 53 ∧ e ≤ 971
  | .real _ => False

/-- Readings can be written in a file and read from it. -/
theorem natAbs_wholeSeconds_lt {t : Quantity} (ht : IsReading t) :
    (wholeSeconds t).natAbs < 10 ^ maxDigits := by
  cases t with
  | whole n => exact ht
  | real x =>
    cases x with
    | infinite negative => cases ht
    | nan => cases ht
    | finite negative m e =>
      obtain ⟨hm, he⟩ := ht
      obtain ⟨top, htop⟩ : ∃ top, top = 971 := ⟨_, rfl⟩
      obtain ⟨digits, hdigits⟩ : ∃ digits, digits = maxDigits := ⟨_, rfl⟩
      have hlength : 53 + top ≤ digits := by
        rw [htop, hdigits]
        decide
      have hwhole : (wholeSeconds (.real (.finite negative m e))).natAbs ≤ m * 2 ^ e.toNat := by
        refine le_trans (le_of_eq ?_) (Nat.div_le_self _ (2 ^ (-e).toNat))
        cases negative with
        | false => exact Int.natAbs_natCast _
        | true => exact (Int.natAbs_neg _).trans (Int.natAbs_natCast _)
      rw [← hdigits]
      calc (wholeSeconds (.real (.finite negative m e))).natAbs ≤ m * 2 ^ e.toNat := hwhole
        _ < 2 ^ 53 * 2 ^ e.toNat := Nat.mul_lt_mul_of_pos_right hm (Nat.two_pow_pos _)
        _ ≤ 2 ^ 53 * 2 ^ top := Nat.mul_le_mul_left _ (Nat.pow_le_pow_right Nat.two_pos (by omega))
        _ = 2 ^ (53 + top) := (Nat.pow_add 2 53 top).symm
        _ ≤ 10 ^ (53 + top) := Nat.pow_le_pow_left (by decide) _
        _ ≤ 10 ^ digits := Nat.pow_le_pow_right (by decide) hlength

/-! ### Saving and loading -/

/-- **What is saved is loaded again** up to a lifetime later, by readings of the clock whose fractions
are dropped toward zero; after that nothing is. -/
theorem load_content (verbose : Bool) (file : String) (early late : Quantity)
    (hkeys : identities.keys.Nodup) (hplain : ∀ e ∈ identities, e.2.Plain 1000)
    (hearly : IsReading early) :
    (load verbose file (.ofText (content identities (wholeSeconds early))) (wholeSeconds late)).2 =
        .ok (if wholeSeconds late - wholeSeconds early ≤ lifetime then identities else []) ∧
      ∀ (t : Quantity) q, t.value? = some q → wholeSeconds t = if 0 ≤ q then ⌊q⌋ else ⌈q⌉ := by
  refine ⟨?_, fun t q ht => wholeSeconds_eq ht⟩
  rw [load_records verbose file _ (json?_content hkeys hplain (natAbs_wholeSeconds_lt hearly))]
  by_cases hage : wholeSeconds late - wholeSeconds early ≤ lifetime
  · rw [if_pos hage, if_neg hage.not_gt]
  · rw [if_neg hage, if_pos (not_le.1 hage)]

namespace Saved

/-- One identity. -/
def ann : Catalog String Json := [("1", .object [("name", .text "ann"), ("resolved", .bool true)])]

theorem nodup_ann : ann.keys.Nodup := by decide

theorem plain_ann : ∀ e ∈ ann, e.2.Plain 1000 := by
  refine List.forall_mem_singleton.2 (.object ?_ ?_)
  · show ["name", "resolved"].Nodup
    decide
  · exact List.forall_mem_cons.2 ⟨.text _ _, List.forall_mem_singleton.2 (.bool _ _)⟩

/-- Three quarters after second `1000`. -/
def early : Quantity := .real (.finite false (4003 * 2 ^ 41) (-43))

theorem isReading_early : IsReading early := ⟨by decide, by decide⟩

/-- An identity is loaded in second `1900` and no longer in second `1901`. -/
theorem load_content_ann :
    ann.keys.Nodup ∧ (∀ e ∈ ann, e.2.Plain 1000) ∧ IsReading early ∧ wholeSeconds early = 1000 ∧
      (load false fileName (.ofText (content ann (wholeSeconds early))) 1900).2 = .ok ann ∧
      (load false fileName (.ofText (content ann (wholeSeconds early))) 1901).2 = .ok [] :=
  ⟨nodup_ann, plain_ann, isReading_early, rfl,
    (load_content false fileName early (.whole 1900) nodup_ann plain_ann isReading_early).1,
    (load_content false fileName early (.whole 1901) nodup_ann plain_ann isReading_early).1⟩

/-- Half a second before second zero. -/
def beforeZero : Quantity := .real (.finite true (2 ^ 52) (-53))

/-- Half a second after second `900`. -/
def afterLifetime : Quantity := .real (.finite false (1801 * 2 ^ 42) (-43))

/-- **Across second zero** an identity is loaded although the two readings lie in seconds that are more
than a lifetime apart. -/
theorem load_content_across_zero :
    beforeZero.value? = some (-1 / 2) ∧ afterLifetime.value? = some (1801 / 2) ∧
      lifetime < ⌊(1801 / 2 : ℚ)⌋ - ⌊(-1 / 2 : ℚ)⌋ ∧
      (load false fileName (.ofText (content ann (wholeSeconds beforeZero)))
        (wholeSeconds afterLifetime)).2 = .ok ann := by
  refine ⟨?_, ?_, ?_, ?_⟩
  · rw [beforeZero, Quantity.value?, Binary64.toRat?_finite]
    norm_num
  · rw [afterLifetime, Quantity.value?, Binary64.toRat?_finite]
    norm_num
  · norm_num [lifetime]
  · have hzero : (wholeSeconds beforeZero).natAbs < 10 ^ maxDigits :=
      natAbs_wholeSeconds_lt ⟨by decide, by decide⟩
    rw [load_records false fileName _ (json?_content nodup_ann plain_ann hzero)]
    rfl

end Saved

end UsageLedger.IdentityStore
