/-
UsageLedger/Proofs/Report/Figure.lean

The figures of a usage: what it counts, adds up and sorts into buckets, each as
one integer.  Two usages with the same figures are the same
(`Usage.ext_figure`).

What a node adds to a figure is its `share`, said without the accumulators: a
file adds one to the files, its blocks, its size, and one to the bucket that its
size lies in; a directory and a link add one to a count of their own and nothing
else.  `figure_counted` says that counting a node adds its shares, so whatever is
said of reports comes down to sums of shares.
-/
import Mathlib.Algebra.BigOperators.Group.List.Basic
import Mathlib.Data.List.GetD
import UsageLedger.Report.Basic

namespace UsageLedger

variable {b : Borders}

/-! ### Buckets -/

/-- A size lies in a bucket: the borders before the bucket are below the size, and those from the
bucket on are not. -/
def Borders.InBucket (b : Borders) (i : ℕ) (size : ℤ) : Prop :=
  i ≤ b.values.length ∧ (∀ border ∈ b.values.take i, border < size) ∧
    ∀ border ∈ b.values.drop i, size ≤ border

instance (b : Borders) (i : ℕ) (size : ℤ) : Decidable (b.InBucket i size) :=
  inferInstanceAs (Decidable (_ ∧ _ ∧ _))

/-- In an increasing list the borders below a size come first. -/
theorem split_at_size {borders : List ℤ} (h : borders.Pairwise (· < ·)) (size : ℤ) :
    (∀ border ∈ borders.take (borders.takeWhile (· < size)).length, border < size) ∧
      ∀ border ∈ borders.drop (borders.takeWhile (· < size)).length, size ≤ border := by
  induction h with
  | nil => simp
  | @cons border rest hlt _ ih =>
    by_cases hb : border < size
    · simpa [hb] using ih
    · have hs : size ≤ border := Int.not_lt.1 hb
      have hr : ∀ c ∈ rest, size ≤ c := fun c hc => Int.le_trans hs (Int.le_of_lt (hlt c hc))
      simpa [hb, hs] using hr

theorem Borders.inBucket_slot (b : Borders) (size : ℤ) : b.InBucket (b.slot size) size :=
  ⟨b.slotWhere_le _, split_at_size b.increasing size⟩

/-- A size lies in one bucket only. -/
theorem Borders.InBucket.le {i j : ℕ} {size : ℤ} (hi : b.InBucket i size)
    (hj : b.InBucket j size) : j ≤ i := by
  by_contra hij
  have hl : i < b.values.length := by have := hj.1; omega
  -- The border between the two buckets would be both below the size and not below it.
  have below : b.values[i] < size := by
    refine hj.2.1 _ (List.mem_take_iff_getElem.2 ⟨i, ?_, rfl⟩)
    omega
  have above : size ≤ b.values[i] :=
    hi.2.2 _ (List.mem_drop_iff_getElem.2 ⟨0, by simpa using hl, by simp⟩)
  omega

theorem Borders.inBucket_iff {i : ℕ} {size : ℤ} : b.InBucket i size ↔ i = b.slot size := by
  constructor
  · intro h
    exact Nat.le_antisymm ((b.inBucket_slot size).le h) (h.le (b.inBucket_slot size))
  · rintro rfl
    exact b.inBucket_slot size

/-! ### Figures -/

/-- A figure of a usage. -/
inductive Figure
  | files
  | directories
  | symlinks
  | blocks
  | bytes
  | bucket (i : ℕ)

/-- What a usage shows for a figure; there is nothing in a bucket beyond the last one. -/
def Usage.figure (u : Usage b) : Figure → ℤ
  | .files => u.files
  | .directories => u.directories
  | .symlinks => u.symlinks
  | .blocks => u.blocks
  | .bytes => u.bytes
  | .bucket i => (u.sizes.counts.getD i 0 : ℕ)

/-- What a node adds to a figure. -/
def Figure.share (b : Borders) (f : Figure) (n : Node) : ℤ :=
  match f, n.kind with
  | .files, .file => 1
  | .directories, .directory => 1
  | .symlinks, .symlink => 1
  | .blocks, .file => n.blocks
  | .bytes, .file => n.size
  | .bucket i, .file => if b.InBucket i n.size then 1 else 0
  | _, _ => 0

/-- What some visits add to a figure. -/
def Figure.total (b : Borders) (f : Figure) (visits : List Visit) : ℤ :=
  (visits.map fun v => f.share b v.node).sum

theorem Usage.ext_figure {u u' : Usage b} (h : ∀ f, u.figure f = u'.figure f) : u = u' := by
  have hsizes : u.sizes.counts = u'.sizes.counts := by
    refine List.ext_getElem (u.sizes.length_counts.trans u'.sizes.length_counts.symm) ?_
    intro i hi hi'
    have := Int.ofNat.inj (h (.bucket i))
    rwa [List.getD_eq_getElem _ _ hi, List.getD_eq_getElem _ _ hi'] at this
  obtain ⟨files, directories, symlinks, blocks, bytes, sizes, hl⟩ := u
  obtain ⟨files', directories', symlinks', blocks', bytes', sizes', hl'⟩ := u'
  obtain rfl : files = files' := Int.ofNat.inj (h .files)
  obtain rfl : directories = directories' := Int.ofNat.inj (h .directories)
  obtain rfl : symlinks = symlinks' := Int.ofNat.inj (h .symlinks)
  obtain rfl : blocks = blocks' := h .blocks
  obtain rfl : bytes = bytes' := h .bytes
  obtain rfl : sizes = sizes' := hsizes
  rfl

@[simp] theorem Usage.figure_zero (b : Borders) (f : Figure) : (Usage.zero b).figure f = 0 := by
  cases f with
  | bucket i =>
    show (((List.replicate (b.values.length + 1) 0).getD i 0 : ℕ) : ℤ) = 0
    rw [List.getD_eq_getElem?_getD, List.getElem?_replicate]
    split <;> rfl
  | _ => rfl

/-! ### Counting a node -/

theorem figure_addSize (h : Histogram b) (size : ℤ) (i : ℕ) :
    (((h.add size).counts.getD i 0 : ℕ) : ℤ) =
      (h.counts.getD i 0 : ℕ) + if b.InBucket i size then 1 else 0 := by
  have hs : b.slot size < h.counts.length := by
    rw [h.length_counts]
    exact Nat.lt_succ_of_le (b.slotWhere_le _)
  simp only [Histogram.add, Histogram.countIn, Borders.inBucket_iff, List.getD_eq_getElem?_getD,
    List.getElem?_modify]
  by_cases hi : i = b.slot size
  · subst hi
    simp [hs]
  · simp [hi, Ne.symm hi]

/-- Counting a node adds its share to each figure. -/
theorem Usage.figure_counted (n : Node) (u : Usage b) (f : Figure) :
    (u.counted n).figure f = u.figure f + f.share b n := by
  obtain ⟨kind, name, user, group, size, blocks⟩ := n
  cases kind with
  | file =>
    cases f with
    | bucket i => exact figure_addSize u.sizes size i
    | _ => simp [counted, Report.changeOf, addFile, figure, Figure.share]
  | directory => cases f <;> simp [counted, Report.changeOf, addDirectory, figure, Figure.share]
  | symlink => cases f <;> simp [counted, Report.changeOf, addSymlink, figure, Figure.share]
  | other => cases f <;> simp [counted, Report.changeOf, figure, Figure.share]

end UsageLedger
