/-
UsageLedger/Histogram.lean

Histograms of file sizes.  The borders are inclusive upper limits in strictly
increasing order; one more bucket holds what lies above the last of them.

Main statements: every accepted list of borders is increasing and starts at zero
or above, by its type; `Histogram.add` counts a size in exactly one bucket.
-/
import UsageLedger.Size
import UsageLedger.Text.Pieces

namespace UsageLedger

open Number

/-- The first two neighbours that are not in increasing order. -/
def firstDisorder? : List Int → Option (Int × Int)
  | a :: b :: rest => if b ≤ a then some (a, b) else firstDisorder? (b :: rest)
  | _ => none

theorem pairwise_of_firstDisorder? {bs : List Int} (h : firstDisorder? bs = none) :
    bs.Pairwise (· < ·) := by
  induction bs with
  | nil => exact .nil
  | cons a rest ih =>
    cases rest with
    | nil => exact List.pairwise_singleton ..
    | cons b rest =>
      simp only [firstDisorder?] at h
      split at h
      · contradiction
      · have tail := ih h
        refine List.pairwise_cons.2 ⟨fun x hx => ?_, tail⟩
        rcases List.mem_cons.1 hx with rfl | hx
        · omega
        · have := (List.pairwise_cons.1 tail).1 x hx
          omega

/-- The borders of a histogram. -/
structure Borders where
  values : List Int
  ne_nil : values ≠ []
  nonneg : ∀ b ∈ values.head?, 0 ≤ b
  increasing : values.Pairwise (· < ·)

namespace Borders

/-- The borders given by a list of numbers. -/
def ofList (bs : List Int) : Except Fault Borders :=
  match hs : bs with
  | [] => .error (.invalid .noBorders)
  | first :: _ =>
    if hn : first < 0 then .error (.invalid (.negativeBorder first))
    else
      match hd : firstDisorder? bs with
      | some (lower, upper) => .error (.invalid (.borderOrder lower upper))
      | none =>
        .ok ⟨bs, by simp [hs], by simp [hs]; omega, pairwise_of_firstDisorder? hd⟩

/-- The borders given by a value: its items as whole numbers. -/
def ofJson (v : Json) : Except Fault Borders := do
  ofList (← (← v.items).mapM Json.toWhole)

/-- The borders given by a text: sizes separated by commas, where blank pieces do not count. -/
def parse (s : String) : Except Fault Borders := do
  let pieces := (Text.pieces ',' s.toList).filter fun p => !p.all Text.isBlank
  ofList (← pieces.mapM fun p => Size.parse (String.ofList p))

/-- Zero, then every power of two from one mebibyte to 128 gibibytes. -/
def standardValues : List Int := 0 :: (List.range 18).map fun i => 2 ^ (20 + i)

/-- The borders where none are given. -/
def standard : Borders := ⟨standardValues, by decide, by decide, by decide⟩

/-- How the labels of the buckets are spelled; the last one stands for all that lies above. -/
def spelledLabels (b : Borders) : List String :=
  let named := b.values.map Size.spelledLabel
  named ++ [">" ++ named.getLast (by simpa [named] using b.ne_nil)]

/-- The labels of some borders with one more for all that lies above the last of them. -/
def withOverflow (named : List String) : Except Fault (List String) :=
  match named.getLast? with
  | some last => .ok (named ++ [">" ++ last])
  | none => .error .noItem

/-- The labels of the buckets. -/
def labels (limit : Option Nat) (b : Borders) : Except Fault (List String) :=
  (b.values.mapM (Size.label limit)).bind withOverflow

/-- The labels that any value has as borders, valid or not. -/
def labelsOf (limit : Option Nat) (v : Json) : Except Fault (List String) := do
  withOverflow (← (← v.items).mapM (Size.labelOf limit))

/-- The bucket of a size, given which borders lie below it. -/
def slotWhere (b : Borders) (isBelow : Int → Bool) : Nat := (b.values.takeWhile isBelow).length

/-- The bucket of a size. -/
def slot (b : Borders) (size : Int) : Nat := b.slotWhere fun border => border < size

/-- The bucket of any quantity. -/
def slotOf (b : Borders) (size : Quantity) : Nat :=
  b.slotWhere fun border => (Quantity.whole border).below size

theorem slotWhere_le (b : Borders) (isBelow : Int → Bool) :
    b.slotWhere isBelow ≤ b.values.length := (List.takeWhile_prefix isBelow).length_le

end Borders

/-- A histogram with given borders. -/
structure Histogram (b : Borders) where
  counts : List Nat
  length_counts : counts.length = b.values.length + 1
  deriving DecidableEq, Repr

namespace Histogram

variable {b : Borders}

/-- The histogram without any size. -/
def empty (b : Borders) : Histogram b := ⟨List.replicate (b.values.length + 1) 0, by simp⟩

/-- One more size in the given bucket. -/
def countIn (h : Histogram b) (slot : Nat) : Histogram b :=
  ⟨h.counts.modify slot (· + 1), by simp [h.length_counts]⟩

/-- One more size. -/
def add (h : Histogram b) (size : Int) : Histogram b := h.countIn (b.slot size)

/-- One more quantity. -/
def addQuantity (h : Histogram b) (size : Quantity) : Histogram b := h.countIn (b.slotOf size)

/-- The number of sizes. -/
def total (h : Histogram b) : Nat := h.counts.sum

theorem sum_modify_succ (counts : List Nat) (slot : Nat) (h : slot < counts.length) :
    (counts.modify slot (· + 1)).sum = counts.sum + 1 := by
  induction counts generalizing slot with
  | nil => simp at h
  | cons n rest ih =>
    cases slot with
    | zero => simp; omega
    | succ slot =>
      simp only [List.modify_succ_cons, List.sum_cons]
      rw [ih slot (by simpa using h)]
      omega

theorem total_add (h : Histogram b) (size : Int) : (h.add size).total = h.total + 1 :=
  sum_modify_succ _ _ (by have := b.slotWhere_le fun border => border < size
                          rw [h.length_counts, Borders.slot]; omega)

end Histogram

end UsageLedger
