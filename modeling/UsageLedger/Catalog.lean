/-
UsageLedger/Catalog.lean

Tables in order of first entry.  Putting a value under a key that is present
replaces the value and keeps the place; a new key goes to the end.  JSON
objects, the nodes of a snapshot, the accumulators of a report and the identity
cache are all such tables.

Main statements: `find?_put` says what a later look-up sees, `keys_put` what
becomes of the order of the keys, `find?_update` and `keys_update` the same of a
change of one value.
-/
namespace UsageLedger

/-- A table of keys and values in order of first entry. -/
abbrev Catalog (κ α : Type) := List (κ × α)

namespace Catalog

variable {κ α : Type} [DecidableEq κ]

/-- The value under a key. -/
def find? (key : κ) : Catalog κ α → Option α
  | [] => none
  | (k, v) :: rest => if k = key then some v else find? key rest

/-- Whether a key is present. -/
def has (key : κ) (c : Catalog κ α) : Bool := (c.find? key).isSome

/-- The table with a value under a key. -/
def put (key : κ) (value : α) : Catalog κ α → Catalog κ α
  | [] => [(key, value)]
  | (k, v) :: rest => if k = key then (k, value) :: rest else (k, v) :: put key value rest

/-- The table with the value under a key changed; a new key starts from an initial value. -/
def update (key : κ) (initial : α) (change : α → α) (c : Catalog κ α) : Catalog κ α :=
  c.put key (change ((c.find? key).getD initial))

/-- The keys in order of first entry. -/
def keys (c : Catalog κ α) : List κ := c.map (·.1)

/-- The values in the order of their keys. -/
def values (c : Catalog κ α) : List α := c.map (·.2)

/-- The table built from entries given one after another. -/
def ofEntries (entries : List (κ × α)) : Catalog κ α :=
  entries.foldl (fun c e => c.put e.1 e.2) []

theorem find?_put (key key' : κ) (value : α) (c : Catalog κ α) :
    (c.put key value).find? key' = if key = key' then some value else c.find? key' := by
  induction c with
  | nil => simp [put, find?]
  | cons e rest ih =>
    obtain ⟨k, v⟩ := e
    simp only [put]
    split <;> simp only [find?]
    · subst_vars; split <;> simp_all
    · rw [ih]; split <;> split <;> simp_all

theorem find?_isSome_iff (key : κ) (c : Catalog κ α) :
    (c.find? key).isSome ↔ key ∈ c.keys := by
  induction c with
  | nil => simp [find?, keys]
  | cons e rest ih =>
    simp only [find?, keys, List.map_cons, List.mem_cons]
    split
    · simp_all
    · rename_i h
      rw [ih]
      simp [keys, Ne.symm h]

theorem mem_of_find? {key : κ} {value : α} {c : Catalog κ α} (h : c.find? key = some value) :
    (key, value) ∈ c := by
  induction c with
  | nil => simp [find?] at h
  | cons e rest ih =>
    simp only [find?] at h
    split at h
    · rename_i hk
      cases h
      exact hk ▸ List.mem_cons_self
    · exact List.mem_cons_of_mem e (ih h)

theorem find?_of_mem {key : κ} {value : α} {c : Catalog κ α} (hc : c.keys.Nodup)
    (h : (key, value) ∈ c) : c.find? key = some value := by
  induction c with
  | nil => simp at h
  | cons e rest ih =>
    simp only [keys, List.map_cons, List.nodup_cons] at hc
    rcases List.mem_cons.1 h with rfl | h
    · simp [find?]
    · have hk : e.1 ≠ key := fun he => hc.1 (List.mem_map.2 ⟨(key, value), h, he.symm⟩)
      simpa [find?, hk] using ih hc.2 h

theorem keys_put (key : κ) (value : α) (c : Catalog κ α) :
    (c.put key value).keys = if key ∈ c.keys then c.keys else c.keys ++ [key] := by
  induction c with
  | nil => simp [put, keys]
  | cons e rest ih =>
    obtain ⟨k, v⟩ := e
    simp only [put]
    split
    · simp_all [keys]
    · simp only [keys, List.map_cons] at ih ⊢
      rename_i hne
      rw [ih]
      by_cases h : key ∈ List.map (·.1) rest <;> simp [h, Ne.symm hne]

theorem put_of_find?_eq_none {key : κ} {c : Catalog κ α} (h : c.find? key = none) (value : α) :
    c.put key value = c ++ [(key, value)] := by
  induction c with
  | nil => rfl
  | cons e rest ih =>
    simp only [find?] at h
    split at h
    · cases h
    · rename_i hk
      simp [put, hk, ih h]

theorem nodup_keys_put (key : κ) (value : α) {c : Catalog κ α} (h : c.keys.Nodup) :
    (c.put key value).keys.Nodup := by
  rw [keys_put]
  split
  · exact h
  · rename_i hk
    exact List.nodup_append.2 ⟨h, by simp, by rintro a ha b hb rfl; simp_all⟩

theorem find?_update (key key' : κ) (initial : α) (change : α → α) (c : Catalog κ α) :
    (c.update key initial change).find? key' =
      if key = key' then some (change ((c.find? key).getD initial)) else c.find? key' :=
  find?_put key key' _ c

theorem keys_update (key : κ) (initial : α) (change : α → α) (c : Catalog κ α) :
    (c.update key initial change).keys = if key ∈ c.keys then c.keys else c.keys ++ [key] :=
  keys_put key _ c

theorem mem_values_put {key : κ} {value a : α} {c : Catalog κ α} (h : a ∈ (c.put key value).values) :
    a = value ∨ a ∈ c.values := by
  induction c with
  | nil => exact .inl (by simpa [put, values] using h)
  | cons e rest ih =>
    simp only [put, values] at h ih ⊢
    split at h
    · rcases List.mem_cons.1 h with h | h
      · exact .inl h
      · exact .inr (List.mem_cons_of_mem _ h)
    · rcases List.mem_cons.1 h with h | h
      · exact .inr (List.mem_cons.2 (.inl h))
      · exact (ih h).imp_right (List.mem_cons_of_mem _)

end Catalog

end UsageLedger
