/-
UsageLedger/Proofs/Ancestor.lean

The order of paths.  A path lies within another one when the names of the other
come first in it, so `/home2` does not lie within `/home`.  Going to the parent
takes off the last name; every path within a directory, other than the directory
itself, lies within exactly one of its children.

`within_iff` steps the order from below, along parents, and `exists_child` steps
it from above, along children.
-/
import Mathlib.Data.List.Infix
import UsageLedger.Path

namespace UsageLedger.Path

variable {p q r : Path}

@[ext] theorem ext_names (h : p.names = q.names) : p = q := by
  obtain ⟨names, _⟩ := p
  obtain ⟨names', _⟩ := q
  cases h
  rfl

theorem text_injective : Function.Injective text :=
  Function.LeftInverse.injective ofText_text

@[simp] theorem names_root : root.names = [] := rfl

@[simp] theorem names_parent (p : Path) : p.parent.names = p.names.dropLast := rfl

theorem names_ne_nil (h : p ≠ root) : p.names ≠ [] := fun he => h (ext_names he)

theorem length_parent_add_one (h : p ≠ root) : p.parent.names.length + 1 = p.names.length := by
  have := List.length_pos_of_ne_nil (names_ne_nil h)
  rw [names_parent, List.length_dropLast]
  omega

/-! ### The order -/

@[refl] theorem Within.refl (p : Path) : p.Within p := List.prefix_refl p.names

theorem Within.trans (hpq : p.Within q) (hqr : q.Within r) : p.Within r :=
  List.IsPrefix.trans hqr hpq

theorem within_parent (p : Path) : p.Within p.parent := List.dropLast_prefix p.names

theorem Within.length_le (h : p.Within q) : q.names.length ≤ p.names.length := List.IsPrefix.length_le h

theorem Within.eq_of_length (h : p.Within q) (hl : p.names.length ≤ q.names.length) : p = q :=
  (ext_names (List.IsPrefix.eq_of_length_le h hl)).symm

theorem Within.length_lt (h : p.Within q) (hne : p ≠ q) : q.names.length < p.names.length := by
  by_contra hl
  exact hne (h.eq_of_length (Nat.le_of_not_lt hl))

/-- What lies within a path is that path, or its parent lies within it. -/
theorem within_iff : p.Within q ↔ p = q ∨ p ≠ root ∧ p.parent.Within q := by
  constructor
  · intro h
    by_cases hpq : p = q
    · exact .inl hpq
    · -- `q` is shorter, so it is still a prefix when the last name is gone.
      have hp : p ≠ root := fun hp => by simpa [hp] using h.length_lt hpq
      refine .inr ⟨hp, List.prefix_of_prefix_length_le h (within_parent p) ?_⟩
      have := h.length_lt hpq
      have := length_parent_add_one hp
      omega
  · rintro (rfl | ⟨_, h⟩)
    · exact .refl p
    · exact (within_parent p).trans h

/-- Two paths that the same path lies within are comparable, so equal if they are equally long. -/
theorem Within.eq_of_within (hq : p.Within q) (hr : p.Within r) (hl : q.names.length = r.names.length) :
    q = r :=
  ext_names (List.prefix_of_prefix_length_le hq hr hl.le |>.eq_of_length hl)

/-! ### Children -/

/-- The path made of the first names of another one. -/
def first (p : Path) (n : ℕ) : Path :=
  ⟨p.names.take n, fun name h => p.valid name (List.mem_of_mem_take h)⟩

theorem within_first (p : Path) (n : ℕ) : p.Within (p.first n) := List.take_prefix n p.names

theorem length_first (hn : n ≤ p.names.length) : (p.first n).names.length = n := by
  simp [first, hn]

/-- Below a directory each path lies within one of its children. -/
theorem exists_child (h : p.Within q) (hne : p ≠ q) :
    ∃ c, c ≠ root ∧ c.parent = q ∧ p.Within c := by
  -- The child keeps one name more than `q` has.
  have hw := within_first p (q.names.length + 1)
  have hl : (p.first (q.names.length + 1)).names.length = q.names.length + 1 :=
    length_first (h.length_lt hne)
  have hc : p.first (q.names.length + 1) ≠ root := fun he => by simp [he] at hl
  have hp := length_parent_add_one hc
  refine ⟨_, hc, ?_, hw⟩
  exact (hw.trans (within_parent _)).eq_of_within h (by omega)

end UsageLedger.Path
