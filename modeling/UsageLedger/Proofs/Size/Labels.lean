/-
UsageLedger/Proofs/Size/Labels.lean

Labels of sizes.  A label is a whole number followed by a unit (`exists_spelledLabel`).  Its
unit begins at the first letter, so the number and the unit are found again
(`takeWhile_written`), and with them the size.  So different sizes have different labels
(`spelledLabel_injective`), and the buckets of a histogram too (`nodup_spelledLabels`).

How many digits may be written is a setting, which may also be that any number may.  Where
there is a limit, a size whose label would have a longer number has none; the number of a
label is never longer than the size itself.
-/
import Mathlib.Data.Int.Order.Basic
import Mathlib.Data.List.Forall2
import Mathlib.Data.List.Nodup
import UsageLedger.Histogram
import UsageLedger.Proofs.Text.Aligned

namespace UsageLedger

open Number

/-- The values of a list are those of its items. -/
theorem mapM_eq_ok_iff {α β : Type} {f : α → Except Fault β} {items : List α} {values : List β} :
    items.mapM f = .ok values ↔ List.Forall₂ (fun a b => f a = .ok b) items values := by
  induction items generalizing values with
  | nil =>
    rw [List.mapM_nil, List.forall₂_nil_left_iff]
    exact ⟨fun h => (Except.ok.inj h).symm, fun h => congrArg _ h.symm⟩
  | cons a rest ih =>
    rw [List.mapM_cons, bind_eq_ok, List.forall₂_cons_left_iff]
    constructor
    · rintro ⟨b, hb, h⟩
      obtain ⟨others, hothers, h⟩ := bind_eq_ok.1 h
      exact ⟨b, others, hb, ih.1 hothers, (Except.ok.inj h).symm⟩
    · rintro ⟨b, others, hb, hothers, rfl⟩
      exact ⟨b, hb, bind_eq_ok.2 ⟨others, ih.2 hothers, rfl⟩⟩

/-- What is paired with some values one by one is paired with each of them. -/
theorem exists_of_forall₂ {α β : Type} {r : α → β → Prop} {as : List α} {bs : List β}
    (h : List.Forall₂ r as bs) : ∀ a ∈ as, ∃ b, r a b :=
  ((List.forall₂_and_left as bs).1 (h.imp fun _ b hb => ⟨⟨b, hb⟩, hb⟩)).1

/-- A number below a power of ten has no more digits than the power. -/
theorem isWritableIn_of_lt {n : ℤ} {most : ℕ} (h₀ : 0 ≤ n) (h : n < 10 ^ most) :
    isWritableIn (some most) n = true := by
  lift n to ℕ using h₀
  exact decide_eq_true (by exact_mod_cast h)

namespace Size

variable {c : Char} {limit : Option ℕ} {s : String}

/-! ### What a label is -/

/-- The units of labels, bytes among them, and the power of two that each stands for. -/
def labelNames : List (String × ℕ) := ("B", 0) :: labelUnits

/-- A label is a whole number of a unit. -/
theorem exists_numberAndUnit (size : ℤ) :
    ∃ (k : ℤ) (name : String) (power : ℕ), (name, power) ∈ labelNames ∧ size = k * 2 ^ power ∧
      numberAndUnit size = (k, name) := by
  unfold numberAndUnit labelUnit?
  split
  · rename_i name power hunit
    have hfits := List.find?_some hunit
    rw [Bool.and_eq_true, beq_iff_eq] at hfits
    have hmem := List.mem_cons_of_mem ("B", 0) (List.mem_of_find?_eq_some hunit)
    have hexact := Int.ediv_mul_cancel (Int.dvd_of_emod_eq_zero hfits.2)
    exact ⟨size / 2 ^ power, name, power, hmem, hexact.symm, rfl⟩
  · exact ⟨size, "B", 0, List.mem_cons_self, (Int.mul_one size).symm, rfl⟩

theorem exists_spelledLabel (size : ℤ) :
    ∃ (k : ℤ) (name : String) (power : ℕ), (name, power) ∈ labelNames ∧ size = k * 2 ^ power ∧
      spelledLabel size = toString k ++ name := by
  obtain ⟨k, name, power, hname, hsize, hparts⟩ := exists_numberAndUnit size
  exact ⟨k, name, power, hname, hsize, by rw [spelledLabel, hparts]⟩

/-- The number of a label is no longer than the size. -/
theorem natAbs_numberAndUnit_le (size : ℤ) : (numberAndUnit size).1.natAbs ≤ size.natAbs := by
  obtain ⟨k, name, power, -, hsize, hparts⟩ := exists_numberAndUnit size
  have hpower : ((2 : ℤ) ^ power).natAbs = 2 ^ power := Int.natAbs_pow 2 power
  rw [hparts, hsize, Int.natAbs_mul, hpower]
  exact Nat.le_mul_of_pos_right _ (Nat.two_pow_pos power)

theorem label_eq_ok_iff {size : ℤ} :
    label limit size = .ok s ↔
      isWritableIn limit (numberAndUnit size).1 = true ∧ s = spelledLabel size := by
  unfold label
  split
  · rename_i hw
    rw [hw, Except.ok.injEq]
    simp [eq_comm]
  · rename_i hw
    simp [hw]

/-- A size that can be written has a label. -/
theorem label_of_isWritableIn {size : ℤ} (h : isWritableIn limit size = true) :
    label limit size = .ok (spelledLabel size) := by
  refine label_eq_ok_iff.2 ⟨?_, rfl⟩
  cases limit with
  | none => rfl
  | some most =>
    have hlt : size.natAbs < 10 ^ most := of_decide_eq_true h
    exact decide_eq_true (Nat.lt_of_le_of_lt (natAbs_numberAndUnit_le size) hlt)

/-- Only a size that cannot be written has no label. -/
theorem label_eq_error {size : ℤ} {f : Fault} (h : label limit size = .error f) :
    isWritableIn limit size = false ∧ f = .invalid .longNumber := by
  constructor
  · rw [← Bool.not_eq_true]
    intro hw
    rw [label_of_isWritableIn hw] at h
    cases h
  · unfold label at h
    split at h <;> cases h
    rfl

/-- The letters of a unit: there is a first one. -/
theorem isUnitLetter_of_mem_labelNames {name : String} {power : ℕ} (h : (name, power) ∈ labelNames) :
    name.toList ≠ [] ∧ ∀ c ∈ name.toList, isUnitLetter c = true := by
  have hall : ∀ u ∈ labelNames, u.1.toList ≠ [] ∧ u.1.toList.all isUnitLetter = true := by decide
  obtain ⟨hne, hletters⟩ := hall (name, power) h
  exact ⟨hne, List.all_eq_true.1 hletters⟩

theorem isUnitLetter_of_mem_toString {n : ℤ} (h : c ∈ (toString n).toList) :
    isUnitLetter c = false := by
  rw [← Bool.not_eq_true]
  intro hletter
  refine Text.not_mem_toString (not_digit_of_isUnitLetter hletter).1 ?_ n h
  rintro rfl
  cases hletter

/-- The number of a label stands before the first letter. -/
theorem takeWhile_written (k : ℤ) {name : String} {power : ℕ} (h : (name, power) ∈ labelNames) :
    (toString k ++ name).toList.takeWhile (fun c => !isUnitLetter c) = (toString k).toList := by
  obtain ⟨hne, hletters⟩ := isUnitLetter_of_mem_labelNames h
  obtain ⟨c, rest, hname⟩ := List.exists_cons_of_ne_nil hne
  have hc : isUnitLetter c = true := hletters c (hname ▸ List.mem_cons_self)
  rw [String.toList_append, hname, List.takeWhile_append_of_pos,
    List.takeWhile_cons_of_neg (by simp [hc]), List.append_nil]
  intro c hmem
  rw [isUnitLetter_of_mem_toString hmem]
  rfl

/-- A character that stands in no label. -/
theorem not_mem_spelledLabel (hd : Text.isAsciiDigit c = false) (hm : c ≠ '-') (hl : isUnitLetter c = false)
    (size : ℤ) : c ∉ (spelledLabel size).toList := by
  obtain ⟨k, name, power, hname, -, hlabel⟩ := exists_spelledLabel size
  rw [hlabel, String.toList_append]
  intro hmem
  rcases List.mem_append.1 hmem with hmem | hmem
  · exact Text.not_mem_toString hd hm k hmem
  · rw [(isUnitLetter_of_mem_labelNames hname).2 c hmem] at hl
    cases hl

/-! ### Different labels -/

theorem spelledLabel_injective : Function.Injective spelledLabel := by
  intro m n h
  obtain ⟨k, name, power, hname, hm, hlabel⟩ := exists_spelledLabel m
  obtain ⟨k', name', power', hname', hn, hlabel'⟩ := exists_spelledLabel n
  rw [hlabel, hlabel'] at h
  have hnumber : toString k = toString k' := by
    rw [← String.toList_inj, ← takeWhile_written k hname, h, takeWhile_written k' hname']
  have hk : k = k' := by
    have hread := Text.number?_toString k
    rw [hnumber, Text.number?_toString] at hread
    exact (Option.some.inj hread).symm
  rw [hnumber, String.append_right_inj] at h
  have hpower : ∀ u ∈ labelNames, ∀ v ∈ labelNames, u.1 = v.1 → u.2 = v.2 := by decide
  have hp : power = power' := hpower (name, power) hname (name', power') hname' h
  rw [hm, hn, hk, hp]

end Size

namespace Borders

variable {b : Borders} {limit : Option ℕ} {names : List String}

theorem length_spelledLabels (b : Borders) : b.spelledLabels.length = b.values.length + 1 := by
  simp [spelledLabels]

theorem nodup_spelledLabels (b : Borders) : b.spelledLabels.Nodup := by
  have hvalues : b.values.Nodup := b.increasing.imp fun h => ne_of_lt h
  have hnamed : (b.values.map Size.spelledLabel).Nodup := hvalues.map Size.spelledLabel_injective
  refine List.nodup_append.2 ⟨hnamed, List.nodup_singleton _, ?_⟩
  -- No border has a label with the mark that stands before the last one.
  rintro name hname last hlast rfl
  obtain ⟨size, -, rfl⟩ := List.mem_map.1 hname
  have hmark : '>' ∈ (Size.spelledLabel size).toList := by
    rw [List.mem_singleton.1 hlast, String.toList_append]
    exact List.mem_append_left _ (by decide)
  exact Size.not_mem_spelledLabel rfl (by decide) rfl size hmark

/-- The labels of the buckets are there if every border has one. -/
theorem labels_of_forall (h : ∀ border ∈ b.values, ∃ s, Size.label limit border = .ok s) :
    b.labels limit = .ok b.spelledLabels := by
  have hlabel : ∀ border ∈ b.values, Size.label limit border = .ok (Size.spelledLabel border) := by
    intro border hborder
    obtain ⟨s, hs⟩ := h border hborder
    rw [hs, (Size.label_eq_ok_iff.1 hs).2]
  have hnamed : b.values.mapM (Size.label limit) = .ok (b.values.map Size.spelledLabel) :=
    mapM_eq_ok_iff.2 (List.forall₂_map_right_iff.2 (List.forall₂_same.2 hlabel))
  have hne : b.values.map Size.spelledLabel ≠ [] := by simpa using b.ne_nil
  rw [labels, hnamed]
  show withOverflow (b.values.map Size.spelledLabel) = _
  rw [withOverflow, List.getLast?_eq_some_getLast hne]
  rfl

theorem isOk_labels_standard : (standard.labels (some maxDigits)).isOk = true := by decide +kernel

theorem labels_eq_ok_iff :
    b.labels limit = .ok names ↔
      (∀ border ∈ b.values, ∃ s, Size.label limit border = .ok s) ∧ names = b.spelledLabels := by
  constructor
  · intro h
    have hall : ∀ border ∈ b.values, ∃ s, Size.label limit border = .ok s := by
      obtain ⟨named, hnamed, -⟩ := bind_eq_ok.1 h
      exact exists_of_forall₂ (mapM_eq_ok_iff.1 hnamed)
    rw [labels_of_forall hall] at h
    exact ⟨hall, (Except.ok.inj h).symm⟩
  · rintro ⟨hall, rfl⟩
    exact labels_of_forall hall

/-- Where any number may be written, all borders have labels. -/
theorem labels_none (b : Borders) : b.labels none = .ok b.spelledLabels :=
  labels_of_forall fun _ _ => ⟨_, Size.label_of_isWritableIn rfl⟩

/-- Borders have their labels, or one of them has too many digits. -/
theorem labels_cases (limit : Option ℕ) (b : Borders) :
    b.labels limit = .ok b.spelledLabels ∨
      (b.labels limit = .error (.invalid .longNumber) ∧
        ∃ border ∈ b.values, isWritableIn limit border = false) := by
  cases h : b.labels limit with
  | ok names => exact .inl (congrArg _ (labels_eq_ok_iff.1 h).2)
  | error f =>
    -- The first border without a label is the fault's.
    obtain hnamed | ⟨named, hnamed, hlast⟩ := bind_eq_error.1 h
    · obtain ⟨front, border, rest, hvalues, -, hborder⟩ := mapM_eq_error_iff.1 hnamed
      obtain ⟨hlong, rfl⟩ := Size.label_eq_error hborder
      exact .inr ⟨rfl, border, hvalues ▸ List.mem_append_right _ List.mem_cons_self, hlong⟩
    · have hall : ∀ border ∈ b.values, ∃ s, Size.label limit border = .ok s :=
        exists_of_forall₂ (mapM_eq_ok_iff.1 hnamed)
      rw [labels_of_forall hall] at h
      cases h

end Borders

end UsageLedger
