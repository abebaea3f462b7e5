/-
UsageLedger/Proofs/Catalog.lean

Tables as wholes.  A table without two entries of one key is known by what is found in
it, whatever the order of its entries.

A table built from entries one after another has every key once, where it was first
given (`keys_ofEntries`), with the value that was last given for it
(`find?_ofEntries`).
-/
import Mathlib.Data.List.Induction
import UsageLedger.Catalog

namespace UsageLedger

theorem eraseDups_append_singleton {α : Type} [DecidableEq α] (l : List α) (a : α) :
    (l ++ [a]).eraseDups = if a ∈ l then l.eraseDups else l.eraseDups ++ [a] := by
  rw [List.eraseDups_append]
  by_cases ha : a ∈ l <;> simp [List.removeAll, ha, List.eraseDups_cons]

namespace Catalog

variable {κ α : Type} [DecidableEq κ]

/-! ### Tables in another order -/

variable {c c' : Catalog κ α}

theorem find?_eq_some_iff (hc : c.keys.Nodup) {key : κ} {value : α} :
    c.find? key = some value ↔ (key, value) ∈ c :=
  ⟨mem_of_find?, find?_of_mem hc⟩

theorem find?_eq_of_perm (hc : c.keys.Nodup) (h : c.Perm c') (key : κ) :
    c.find? key = c'.find? key := by
  have hc' : c'.keys.Nodup := (h.map _).nodup_iff.1 hc
  refine Option.ext fun value => ?_
  rw [find?_eq_some_iff hc, find?_eq_some_iff hc', h.mem_iff]

/-! ### Tables with other keys -/

section Renamed

variable {κ' α' : Type} [DecidableEq κ'] {f : κ → κ'}

/-- Keys that are told apart are found under their new names. -/
theorem find?_map (hf : f.Injective) (g : α → α') (key : κ) (c : Catalog κ α) :
    find? (f key) (c.map fun e => (f e.1, g e.2)) = (c.find? key).map g := by
  induction c with
  | nil => rfl
  | cons e rest ih =>
    rw [List.map_cons, find?, find?, ih]
    simp only [hf.eq_iff]
    split <;> rfl

theorem map_put (hf : f.Injective) (g : α → α') (key : κ) (value : α) (c : Catalog κ α) :
    (c.put key value).map (fun e => (f e.1, g e.2)) =
      put (f key) (g value) (c.map fun e => (f e.1, g e.2)) := by
  induction c with
  | nil => rfl
  | cons e rest ih =>
    rw [List.map_cons, put, put, ← ih]
    simp only [hf.eq_iff]
    split <;> rfl

end Renamed

/-! ### Entries one after another -/

theorem ofEntries_append_singleton (entries : List (κ × α)) (e : κ × α) :
    ofEntries (entries ++ [e]) = (ofEntries entries).put e.1 e.2 := by
  simp [ofEntries]

/-- The keys stand where they were first given. -/
theorem keys_ofEntries (entries : List (κ × α)) :
    (ofEntries entries).keys = (entries.map (·.1)).eraseDups := by
  induction entries using List.reverseRecOn with
  | nil => rfl
  | append_singleton entries e ih =>
    rw [ofEntries_append_singleton, keys_put, List.map_append, List.map_singleton,
      eraseDups_append_singleton, ih]
    simp only [List.mem_eraseDups]

theorem nodup_keys_ofEntries (entries : List (κ × α)) : (ofEntries entries).keys.Nodup := by
  induction entries using List.reverseRecOn with
  | nil => exact .nil
  | append_singleton entries e ih =>
    rw [ofEntries_append_singleton]
    exact nodup_keys_put e.1 e.2 ih

/-- The value that was last given for a key counts. -/
theorem find?_ofEntries (entries : List (κ × α)) (key : κ) :
    (ofEntries entries).find? key = ((entries.filter fun e => e.1 = key).getLast?).map (·.2) := by
  induction entries using List.reverseRecOn with
  | nil => rfl
  | append_singleton entries e ih =>
    rw [ofEntries_append_singleton, find?_put, ih, List.filter_append]
    by_cases he : e.1 = key <;> simp [he]

end Catalog

end UsageLedger
