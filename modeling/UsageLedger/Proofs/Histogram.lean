/-
UsageLedger/Proofs/Histogram.lean

What a histogram shows.  The borders that are accepted are the lists that are not empty,
start at zero or above and increase strictly (`exists_ofList_iff`), and they are kept as
they were given.  A size lies in the bucket between the last border below it and the first
one that is not (`inBucket_iff_neighbours`), and a search that halves the borders finds
this bucket (`slot_eq_bisect`).

One size adds one to the bucket that it lies in, so after any sizes each bucket holds the
number of those that lie in it (`getD_counts_foldl_add`).
-/
import Mathlib.Data.Int.Order.Basic
import Mathlib.Order.Nat
import UsageLedger.Proofs.Report.Figure

namespace UsageLedger

variable {b : Borders} {bs : List ℤ} {size : ℤ}

/-! ### Accepted borders -/

/-- What borders must be: not empty, zero or above, and strictly increasing. -/
structure AreBorders (bs : List ℤ) : Prop where
  ne_nil : bs ≠ []
  nonneg : ∀ first ∈ bs.head?, 0 ≤ first
  increasing : bs.Pairwise (· < ·)

theorem firstDisorder?_eq_none (h : bs.Pairwise (· < ·)) : firstDisorder? bs = none := by
  induction h with
  | nil => rfl
  | @cons lower rest hlower _ ih =>
    cases rest with
    | nil => rfl
    | cons upper rest =>
      have hlt : lower < upper := hlower upper List.mem_cons_self
      rw [firstDisorder?, if_neg (Int.not_le.2 hlt)]
      exact ih

namespace Borders

theorem values_of_ofList (h : ofList bs = .ok b) : b.values = bs := by
  unfold ofList at h
  split at h
  · cases h
  · split at h
    · cases h
    · split at h
      · cases h
      · cases h
        rfl

/-- A list is accepted if and only if it is one of borders. -/
theorem exists_ofList_iff : (∃ b, ofList bs = .ok b) ↔ AreBorders bs := by
  constructor
  · rintro ⟨b, hb⟩
    rw [← values_of_ofList hb]
    exact ⟨b.ne_nil, b.nonneg, b.increasing⟩
  · intro h
    have horder := firstDisorder?_eq_none h.increasing
    unfold ofList
    split
    · exact absurd rfl h.ne_nil
    · rename_i first rest
      have hfirst : ¬ first < 0 := Int.not_lt.2 (h.nonneg first rfl)
      rw [dif_neg hfirst]
      split
      · rename_i horder'
        rw [horder] at horder'
        cases horder'
      · exact ⟨_, rfl⟩

/-! ### Neighbours -/

theorem getElem_le_getElem (b : Borders) {i j : ℕ} (hij : i ≤ j) (hj : j < b.values.length) :
    b.values[i] ≤ b.values[j] := by
  rcases Nat.lt_or_eq_of_le hij with hlt | rfl
  · exact (List.pairwise_iff_getElem.1 b.increasing i j (by omega) hj hlt).le
  · exact le_rfl

/-- Only the two borders next to a bucket decide what lies in it. -/
theorem inBucket_iff_neighbours {i : ℕ} (hi : i ≤ b.values.length) :
    b.InBucket i size ↔
      (∀ j lower, j + 1 = i → b.values[j]? = some lower → lower < size) ∧
        ∀ upper, b.values[i]? = some upper → size ≤ upper := by
  constructor
  · rintro ⟨_, hbelow, habove⟩
    refine ⟨fun j lower hj hlower => ?_, fun upper hupper => ?_⟩
    · obtain ⟨hlength, rfl⟩ := List.getElem?_eq_some_iff.1 hlower
      exact hbelow _ (List.mem_take_iff_getElem.2 ⟨j, by omega, rfl⟩)
    · obtain ⟨hlength, rfl⟩ := List.getElem?_eq_some_iff.1 hupper
      exact habove _ (List.mem_drop_iff_getElem.2 ⟨0, by omega, rfl⟩)
  · rintro ⟨hbelow, habove⟩
    refine ⟨hi, fun border hborder => ?_, fun border hborder => ?_⟩
    · -- The border before the bucket is the greatest of those before it.
      obtain ⟨k, hk, rfl⟩ := List.mem_take_iff_getElem.1 hborder
      have hlast : i - 1 < b.values.length := by omega
      have hlower := hbelow (i - 1) _ (by omega) (List.getElem?_eq_getElem hlast)
      exact (b.getElem_le_getElem (by omega) hlast).trans_lt hlower
    · -- The border after the bucket is the least of those after it.
      obtain ⟨k, hk, rfl⟩ := List.mem_drop_iff_getElem.1 hborder
      have hfirst : i < b.values.length := by omega
      have hupper := habove _ (List.getElem?_eq_getElem hfirst)
      exact hupper.trans (b.getElem_le_getElem (Nat.le_add_right i k) (by omega))

/-- The first bucket goes up to the first border. -/
theorem inBucket_zero_iff {first : ℤ} (h : b.values.head? = some first) :
    b.InBucket 0 size ↔ size ≤ first := by
  rw [List.head?_eq_getElem?] at h
  simp [inBucket_iff_neighbours (Nat.zero_le _), h]

/-- A bucket in the middle goes from above one border up to the next one. -/
theorem inBucket_succ_iff {i : ℕ} {lower upper : ℤ} (hlower : b.values[i]? = some lower)
    (hupper : b.values[i + 1]? = some upper) :
    b.InBucket (i + 1) size ↔ lower < size ∧ size ≤ upper := by
  obtain ⟨hlength, _⟩ := List.getElem?_eq_some_iff.1 hupper
  rw [inBucket_iff_neighbours hlength.le]
  constructor
  · intro hsize
    exact ⟨hsize.1 i lower rfl hlower, hsize.2 upper hupper⟩
  · rintro ⟨hbelow, habove⟩
    refine ⟨fun j lower' hj hlower' => ?_, fun upper' hupper' => ?_⟩
    · obtain rfl : j = i := Nat.succ.inj hj
      rw [hlower] at hlower'
      exact Option.some.inj hlower' ▸ hbelow
    · rw [hupper] at hupper'
      exact Option.some.inj hupper' ▸ habove

/-- The last bucket holds what is above the last border. -/
theorem inBucket_length_iff {last : ℤ} (h : b.values.getLast? = some last) :
    b.InBucket b.values.length size ↔ last < size := by
  rw [List.getLast?_eq_getElem?] at h
  have hpos := List.length_pos_of_ne_nil b.ne_nil
  have hlast : b.values.length - 1 + 1 = b.values.length := Nat.sub_add_cancel hpos
  rw [inBucket_iff_neighbours le_rfl]
  constructor
  · intro hsize
    exact hsize.1 _ last hlast h
  · refine fun hsize => ⟨fun j lower hj hlower => ?_, by simp⟩
    obtain rfl : j = b.values.length - 1 := by omega
    rw [h] at hlower
    exact Option.some.inj hlower ▸ hsize

/-! ### Halving -/

/-- The place of the first border from `lo` on that is not below a size, or else `hi`, found by
halving what lies between the two. -/
def bisect (b : Borders) (size : ℤ) (lo hi : ℕ) : ℕ :=
  if lo < hi then
    if b.values.getD ((lo + hi) / 2) 0 < size then b.bisect size ((lo + hi) / 2 + 1) hi
    else b.bisect size lo ((lo + hi) / 2)
  else lo
termination_by hi - lo

/-- The borders before `lo` stay below the size, and those from `hi` on do not. -/
theorem inBucket_bisect {lo hi : ℕ} (hle : lo ≤ hi) (hhi : hi ≤ b.values.length)
    (hbelow : ∀ border ∈ b.values.take lo, border < size)
    (habove : ∀ border ∈ b.values.drop hi, size ≤ border) :
    b.InBucket (b.bisect size lo hi) size := by
  fun_induction b.bisect size lo hi with
  | case1 lo hi hlt hmid ih =>
    have hlength : (lo + hi) / 2 < b.values.length := by omega
    rw [List.getD_eq_getElem _ _ hlength] at hmid
    refine ih (by omega) hhi (fun border hborder => ?_) habove
    obtain ⟨k, hk, rfl⟩ := List.mem_take_iff_getElem.1 hborder
    exact (b.getElem_le_getElem (by omega) hlength).trans_lt hmid
  | case2 lo hi hlt hmid ih =>
    have hlength : (lo + hi) / 2 < b.values.length := by omega
    rw [List.getD_eq_getElem _ _ hlength, Int.not_lt] at hmid
    refine ih (by omega) hlength.le hbelow fun border hborder => ?_
    obtain ⟨k, hk, rfl⟩ := List.mem_drop_iff_getElem.1 hborder
    exact hmid.trans (b.getElem_le_getElem (Nat.le_add_right _ k) (by omega))
  | case3 lo hi hlt =>
    obtain rfl : lo = hi := by omega
    exact ⟨hhi, hbelow, habove⟩

/-- The search among all borders finds the bucket of a size. -/
theorem slot_eq_bisect (b : Borders) (size : ℤ) : b.slot size = b.bisect size 0 b.values.length :=
  (inBucket_iff.1 (inBucket_bisect (Nat.zero_le _) le_rfl (by simp) (by simp))).symm

end Borders

/-! ### Counting sizes -/

namespace Histogram

variable {h : Histogram b}

theorem total_foldl_add (sizes : List ℤ) :
    (sizes.foldl add h).total = h.total + sizes.length := by
  induction sizes generalizing h with
  | nil => rfl
  | cons size rest ih =>
    rw [List.foldl_cons, ih, total_add, List.length_cons]
    omega

/-- Each bucket gains the number of sizes that lie in it. -/
theorem getD_counts_foldl_add (sizes : List ℤ) (i : ℕ) :
    (sizes.foldl add h).counts.getD i 0 =
      h.counts.getD i 0 + sizes.countP fun size => b.InBucket i size := by
  induction sizes generalizing h with
  | nil => rfl
  | cons size rest ih =>
    have hadd := figure_addSize h size i
    rw [List.foldl_cons, ih, List.countP_cons]
    by_cases hsize : b.InBucket i size
    · simp only [hsize, if_true, decide_true] at hadd ⊢
      omega
    · simp only [hsize, if_false, decide_false, Bool.false_eq_true] at hadd ⊢
      omega

/-- A bucket of a histogram of sizes holds the number of those in it. -/
theorem getElem?_counts (sizes : List ℤ) {i : ℕ} (hi : i ≤ b.values.length) {p : ℤ → Prop}
    [DecidablePred p] (hp : ∀ size, b.InBucket i size ↔ p size) :
    (sizes.foldl add (.empty b)).counts[i]? = some (sizes.countP fun size => p size) := by
  have hlength : i < (sizes.foldl add (.empty b)).counts.length := by
    rw [length_counts]
    omega
  have hcount := getD_counts_foldl_add (h := .empty b) sizes i
  have hempty : (Histogram.empty b).counts.getD i 0 = 0 :=
    Int.ofNat.inj (Usage.figure_zero b (.bucket i))
  rw [List.getD_eq_getElem _ _ hlength, hempty, Nat.zero_add] at hcount
  rw [List.getElem?_eq_getElem hlength, hcount]
  simp only [hp]

/-- A histogram shows some sizes: each of them in the bucket that the neighbouring borders, of which
the upper one is inclusive, mark off. -/
structure Shows (h : Histogram b) (sizes : List ℤ) : Prop where
  length : h.counts.length = b.values.length + 1
  total : h.counts.sum = sizes.length
  first : ∀ {border}, b.values.head? = some border →
    h.counts[0]? = some (sizes.countP fun size => size ≤ border)
  between : ∀ {i lower upper}, b.values[i]? = some lower → b.values[i + 1]? = some upper →
    h.counts[i + 1]? = some (sizes.countP fun size => lower < size ∧ size ≤ upper)
  last : ∀ {border}, b.values.getLast? = some border →
    h.counts[b.values.length]? = some (sizes.countP fun size => border < size)

theorem shows_foldl_add (b : Borders) (sizes : List ℤ) :
    (sizes.foldl add (.empty b)).Shows sizes where
  length := length_counts _
  total := by
    have hempty : (Histogram.empty b).total = 0 := by simp [Histogram.total, empty]
    exact (total_foldl_add sizes).trans (by rw [hempty, Nat.zero_add])
  first := fun hborder => getElem?_counts sizes (Nat.zero_le _) fun _ => Borders.inBucket_zero_iff hborder
  between := by
    intro i lower upper hlower hupper
    obtain ⟨hlength, _⟩ := List.getElem?_eq_some_iff.1 hupper
    exact getElem?_counts sizes hlength.le fun _ => Borders.inBucket_succ_iff hlower hupper
  last := fun hborder => getElem?_counts sizes le_rfl fun _ => Borders.inBucket_length_iff hborder

/-- **What a histogram shows.**  A list of borders is accepted if and only if it is not empty, starts
at zero or above and increases strictly.  The borders then stay as they were given, whatever is
counted; the bucket of a size is the one that halving finds; and after any sizes every bucket
shows how many of them it holds. -/
theorem sizes_shown (bs : List ℤ) :
    ((∃ b, Borders.ofList bs = .ok b) ↔ AreBorders bs) ∧
      ∀ b, Borders.ofList bs = .ok b →
        b.values = bs ∧ (∀ size, b.slot size = b.bisect size 0 bs.length) ∧
          ∀ sizes : List ℤ, (sizes.foldl add (.empty b)).Shows sizes := by
  refine ⟨Borders.exists_ofList_iff, fun b hb => ?_⟩
  have hvalues := Borders.values_of_ofList hb
  refine ⟨hvalues, fun size => ?_, shows_foldl_add b⟩
  rw [← hvalues]
  exact b.slot_eq_bisect size

/-- Sizes at, next to and below two borders. -/
theorem sizes_shown_twoBorders :
    ∃ b, Borders.ofList [0, 10] = .ok b ∧
      ([-3, 0, 1, 10, 10, 11].foldl add (.empty b)).counts = [2, 3, 1] := by
  obtain ⟨haccepted, hshown⟩ := sizes_shown [0, 10]
  obtain ⟨b, hb⟩ := haccepted.2 ⟨by decide, by decide, by decide⟩
  obtain ⟨hvalues, _, hshows⟩ := hshown b hb
  have h := hshows [-3, 0, 1, 10, 10, 11]
  have hlength := h.length
  have hfirst := @h.first 0 (by rw [hvalues]; rfl)
  have hbetween := @h.between 0 0 10 (by rw [hvalues]; rfl) (by rw [hvalues]; rfl)
  have hlast := @h.last 10 (by rw [hvalues]; rfl)
  rw [hvalues] at hlength hlast
  refine ⟨b, hb, List.ext_getElem? fun i => ?_⟩
  match i with
  | 0 => exact hfirst
  | 1 => exact hbetween
  | 2 => exact hlast
  | i + 3 =>
    rw [List.getElem?_eq_none (by rw [hlength]; simp)]
    rfl

end Histogram

end UsageLedger
