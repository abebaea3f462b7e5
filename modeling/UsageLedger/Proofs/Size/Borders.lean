/-
UsageLedger/Proofs/Size/Borders.lean

Borders given as a text.  The pieces between commas that are not blank are sizes, and they
are the borders (`parse_eq_ok_iff`).  Only a size beyond the range of double precision,
where those before it are read, is neither accepted nor refused (`parse_eq_outOfRange_iff`).

The buckets between borders have labels of their own, and those of borders that are read
are never too long (`labels_distinct`).  A label is a size with a whole number of units, so
it is read as the size that it is the label of, as long as double precision holds the number
of bytes (`parse_padded`).  So the labels of borders, joined by commas, are read as these
borders (`parse_labels`).
-/
import Mathlib.Data.List.Forall2
import UsageLedger.Proofs.Histogram
import UsageLedger.Proofs.Size.Labels
import UsageLedger.Proofs.Size.Reading

namespace UsageLedger

open Number

namespace Borders

variable {b : Borders} {s : String}

/-! ### Sizes between commas -/

/-- The pieces of a text between commas, blank ones left out. -/
def sizesIn (s : String) : List String :=
  ((Text.pieces ',' s.toList).filter fun p => !p.all Text.isBlank).map String.ofList

theorem parse_eq (s : String) : parse s = (sizesIn s).mapM Size.parse >>= ofList := by
  unfold parse sizesIn
  rw [List.mapM_map]
  dsimp only [Function.comp_def]

theorem ofList_values (b : Borders) : ofList b.values = .ok b := by
  obtain ⟨b', hb'⟩ := exists_ofList_iff.2 ⟨b.ne_nil, b.nonneg, b.increasing⟩
  have hvalues := values_of_ofList hb'
  rw [hb']
  cases b
  cases b'
  cases hvalues
  rfl

/-- What is no list of borders is not acceptable. -/
theorem exists_invalid_of_ofList {values : List ℤ} {f : Fault} (h : ofList values = .error f) :
    ∃ why, f = .invalid why := by
  unfold ofList at h
  split at h
  · cases h
    exact ⟨_, rfl⟩
  · split at h
    · cases h
      exact ⟨_, rfl⟩
    · split at h <;> cases h
      exact ⟨_, rfl⟩

/-- The borders are the sizes of the pieces, in the same order. -/
theorem parse_eq_ok_iff :
    parse s = .ok b ↔
      List.Forall₂ (fun piece border => Size.parse piece = .ok border) (sizesIn s) b.values := by
  rw [parse_eq, bind_eq_ok, ← mapM_eq_ok_iff]
  constructor
  · rintro ⟨values, hvalues, h⟩
    rw [hvalues, values_of_ofList h]
  · intro h
    exact ⟨b.values, h, b.ofList_values⟩

/-- A text with a size beyond the range of double precision, where all sizes before it are read. -/
def Overflows (s : String) : Prop :=
  ∃ front piece rest, sizesIn s = front ++ piece :: rest ∧ (∀ p ∈ front, ∃ n, Size.parse p = .ok n) ∧
    Size.Vast piece

/-- Only such a text is neither read nor refused. -/
theorem parse_eq_outOfRange_iff : parse s = .error .outOfRange ↔ Overflows s := by
  rw [parse_eq, bind_eq_error, mapM_eq_error_iff]
  simp only [Size.parse_eq_outOfRange_iff]
  constructor
  · rintro (h | ⟨values, -, h⟩)
    · exact h
    · obtain ⟨why, hwhy⟩ := exists_invalid_of_ofList h
      cases hwhy
  · exact .inl

theorem nonneg_of_mem {border : ℤ} (h : border ∈ b.values) : 0 ≤ border := by
  obtain ⟨first, rest, hvalues⟩ := List.exists_cons_of_ne_nil b.ne_nil
  have hfirst : 0 ≤ first := b.nonneg first (by rw [hvalues]; rfl)
  have hincreasing := b.increasing
  rw [hvalues] at h hincreasing
  rcases List.mem_cons.1 h with rfl | h
  · exact hfirst
  · exact hfirst.trans ((List.pairwise_cons.1 hincreasing).1 border h).le

end Borders

/-! ### Labels as sizes -/

/-- A text with blanks around it. -/
def Padded (part text : String) : Prop :=
  ∃ before after, Text.isBlankText before = true ∧ Text.isBlankText after = true ∧
    part = before ++ text ++ after

/-- A visible ASCII character is not blank. -/
theorem Text.not_isBlank_of_visible {c : Char} (h : 33 ≤ c.toNat ∧ c.toNat ≤ 126) :
    isBlank c = false := by
  rw [← Bool.not_eq_true]
  simp only [isBlank, isAsciiBlank, Bool.or_eq_true, Bool.and_eq_true, decide_eq_true_eq, beq_iff_eq]
  omega

theorem Text.stripChars_append {p : Char → Bool} {before cs after : List Char}
    (hbefore : ∀ c ∈ before, p c = true) (hafter : ∀ c ∈ after, p c = true) (hne : cs ≠ [])
    (hcs : ∀ c ∈ cs, p c = false) : stripChars p (before ++ cs ++ after) = cs := by
  -- Whatever follows, nothing is dropped where a character of the text stands first.
  have hstop (cs rest : List Char) (hne : cs ≠ []) (hcs : ∀ c ∈ cs, p c = false) :
      (cs ++ rest).dropWhile p = cs ++ rest := by
    obtain ⟨c, cs, rfl⟩ := List.exists_cons_of_ne_nil hne
    exact List.dropWhile_cons_of_neg (by simp [hcs c List.mem_cons_self])
  have hreverse := hstop cs.reverse [] (by simpa using hne) (by simpa using hcs)
  rw [List.append_nil] at hreverse
  rw [stripChars, List.append_assoc, List.dropWhile_append_of_pos hbefore, hstop cs after hne hcs,
    List.reverse_append, List.dropWhile_append_of_pos (by simpa using hafter), hreverse,
    List.reverse_reverse]

namespace Padded

variable {part text : String}

theorem strip_eq (h : Padded part text) (hne : text.toList ≠ [])
    (htext : ∀ c ∈ text.toList, Text.isBlank c = false) : Text.strip part = text := by
  obtain ⟨before, after, hbefore, hafter, rfl⟩ := h
  rw [Text.strip, String.toList_append, String.toList_append,
    Text.stripChars_append (List.all_eq_true.1 hbefore) (List.all_eq_true.1 hafter) hne htext,
    String.ofList_toList]

theorem not_mem {c : Char} (h : Padded part text) (hc : Text.isBlank c = false)
    (htext : c ∉ text.toList) : c ∉ part.toList := by
  obtain ⟨before, after, hbefore, hafter, rfl⟩ := h
  have hblanks {blanks : String} (hall : Text.isBlankText blanks = true) : c ∉ blanks.toList := by
    intro hmem
    rw [List.all_eq_true.1 hall c hmem] at hc
    cases hc
  rw [String.toList_append, String.toList_append, List.mem_append, List.mem_append, not_or, not_or]
  exact ⟨⟨hblanks hbefore, htext⟩, hblanks hafter⟩

theorem not_isBlankText {c : Char} (h : Padded part text) (hmem : c ∈ text.toList)
    (hc : Text.isBlank c = false) : Text.isBlankText part = false := by
  obtain ⟨before, after, -, -, rfl⟩ := h
  rw [← Bool.not_eq_true]
  intro hall
  have hpart : c ∈ (before ++ text ++ after).toList := by
    rw [String.toList_append, String.toList_append]
    exact List.mem_append_left _ (List.mem_append_right _ hmem)
  rw [List.all_eq_true.1 hall c hpart] at hc
  cases hc

end Padded

namespace Size

variable {part : String} {size : ℤ} {c : Char}

theorem spelledLabel_ne_nil (size : ℤ) : (spelledLabel size).toList ≠ [] := by
  obtain ⟨k, name, power, hname, -, hlabel⟩ := exists_spelledLabel size
  rw [hlabel, String.toList_append]
  exact List.append_ne_nil_of_right_ne_nil _ (isUnitLetter_of_mem_labelNames hname).1

/-- Digits, the sign and letters are visible. -/
theorem not_isBlank_of_mem_spelledLabel (h : c ∈ (spelledLabel size).toList) : Text.isBlank c = false := by
  apply Text.not_isBlank_of_visible
  by_contra hhidden
  refine not_mem_spelledLabel ?_ ?_ ?_ size h
  · rw [← Bool.not_eq_true]
    intro hd
    have hdigit := Text.toNat_of_isAsciiDigit hd
    omega
  · rintro rfl
    exact hhidden (by decide)
  · rw [← Bool.not_eq_true]
    intro hl
    have hletter := toNat_of_isUnitLetter hl
    omega

/-- The parts of a label with a number of units. -/
def labelParts (k : ℕ) (name : String) : Parts := ⟨Nat.toDigits 10 k, [], name.toList⟩

theorem value_labelParts (k : ℕ) (name : String) : (labelParts k name).value = k := by
  rw [Parts.value_of_fraction rfl, labelParts, Text.digitsValue_toDigits]

theorem areOf_labelParts (k : ℕ) {name : String} {power : ℕ} (h : (name, power) ∈ labelNames) :
    (labelParts k name).AreOf (toString (k : ℤ) ++ name).toList where
  text := by
    rw [String.toList_append, Text.toList_toString_int, if_neg (by omega)]
    exact .inl ⟨rfl, rfl⟩
  ne_nil := Nat.toDigits_ne_nil
  whole c := Text.isAsciiDigit_of_mem_toDigits
  fraction c hc := absurd hc List.not_mem_nil
  unit := (isUnitLetter_of_mem_labelNames h).2

/-- In small letters, the units of labels are units of sizes, with the same numbers of bytes. -/
theorem lookup_labelNames {name : String} {power : ℕ} (h : (name, power) ∈ labelNames) :
    units.lookup (String.ofList (name.toList.map Char.toLower)) = some (2 ^ power) := by
  have hall : ∀ u ∈ labelNames,
      units.lookup (String.ofList (u.1.toList.map Char.toLower)) = some (2 ^ u.2) := by decide +kernel
  exact hall (name, power) h

/-- The label of a size is read as the size, with blanks around it too. -/
theorem parse_padded (hlow : 0 ≤ size) (hhigh : size ≤ 2 ^ 53) (h : Padded part (spelledLabel size)) :
    parse part = .ok size := by
  have hstrip := h.strip_eq (spelledLabel_ne_nil size) fun c => not_isBlank_of_mem_spelledLabel
  obtain ⟨k, name, power, hname, hsize, hlabel⟩ := exists_spelledLabel size
  have hk : 0 ≤ k := by
    rw [hsize] at hlow
    exact nonneg_of_mul_nonneg_left hlow (by positivity)
  lift k to ℕ using hk
  have hspells : Spells part (labelParts k name) (2 ^ power) :=
    ⟨by rw [hstrip, hlabel]; exact areOf_labelParts k hname, lookup_labelNames hname⟩
  have hbytes : size = (k * 2 ^ power : ℕ) := by
    rw [hsize]
    push_cast
    rfl
  rw [hbytes] at hhigh ⊢
  exact hspells.parse_natCast (value_labelParts k name) (by exact_mod_cast hhigh)

end Size

namespace Borders

variable {b : Borders} {parts : List String}

/-- Texts without commas that are not blank are the pieces of what they are joined to. -/
theorem sizesIn_intercalate (hne : parts ≠ [])
    (h : ∀ part ∈ parts, ',' ∉ part.toList ∧ Text.isBlankText part = false) :
    sizesIn (",".intercalate parts) = parts := by
  have hpieces : Text.pieces ',' (",".intercalate parts).toList = parts.map String.toList := by
    rw [String.toList_intercalate]
    refine Text.pieces_intercalate ',' (by simpa using hne) fun piece hpiece => ?_
    obtain ⟨part, hpart, rfl⟩ := List.mem_map.1 hpiece
    exact (h part hpart).1
  have hkept : (parts.map String.toList).filter (fun p => !p.all Text.isBlank) =
      parts.map String.toList := by
    refine List.filter_eq_self.2 fun piece hpiece => ?_
    obtain ⟨part, hpart, rfl⟩ := List.mem_map.1 hpiece
    rw [Bool.not_eq_true']
    exact (h part hpart).2
  rw [sizesIn, hpieces, hkept, List.map_map]
  exact (List.map_congr_left fun part _ => String.ofList_toList).trans (List.map_id parts)

/-- A number up to `2 ^ 53` has no more than 16 digits. -/
theorem isWritableIn_of_le {n : ℤ} {most : ℕ} (hmost : 16 < most) (h₀ : 0 ≤ n) (h : n ≤ 2 ^ 53) :
    isWritableIn (some most) n = true := by
  have hsmall : n < 10 ^ 16 := by omega
  exact isWritableIn_of_lt h₀ (hsmall.trans (pow_lt_pow_right₀ (by norm_num) hmost))

theorem overflow_le_pow_maxDigits : overflow ≤ 10 ^ maxDigits := by decide +kernel

/-- The labels of borders that are read are short enough to be written. -/
theorem labels_of_parse (h : parse s = .ok b) : b.labels (some maxDigits) = .ok b.spelledLabels := by
  refine labels_of_forall fun border hborder => ?_
  obtain ⟨piece, hpiece⟩ := exists_of_forall₂ (parse_eq_ok_iff.1 h).flip border hborder
  obtain ⟨h₀, hlt⟩ := Size.parse_range hpiece
  have hw := isWritableIn_of_lt h₀ (hlt.trans_le overflow_le_pow_maxDigits)
  exact ⟨_, Size.label_of_isWritableIn hw⟩

theorem dropLast_spelledLabels (b : Borders) :
    b.spelledLabels.dropLast = b.values.map Size.spelledLabel := by
  rw [spelledLabels]
  exact List.dropLast_concat

/-- **The labels of borders are read as the borders**, with any blanks around them. -/
theorem parse_labels (b : Borders) (hb : ∀ border ∈ b.values, border ≤ 2 ^ 53) :
    ∃ labels, b.labels (some maxDigits) = .ok labels ∧
      ∀ parts, List.Forall₂ Padded parts labels.dropLast → parse (",".intercalate parts) = .ok b := by
  have hbounds : ∀ border ∈ b.values, 0 ≤ border ∧ border ≤ 2 ^ 53 :=
    fun border h => ⟨nonneg_of_mem h, hb border h⟩
  have hlabels : b.labels (some maxDigits) = .ok b.spelledLabels :=
    labels_of_forall fun border h =>
      ⟨_, Size.label_of_isWritableIn (isWritableIn_of_le (by decide) (hbounds border h).1 (hbounds border h).2)⟩
  refine ⟨_, hlabels, fun parts hparts => ?_⟩
  rw [dropLast_spelledLabels, List.forall₂_map_right_iff] at hparts
  have hread : List.Forall₂ (fun part border => Size.parse part = .ok border) parts b.values := by
    have hbounded := (List.forall₂_and_left b.values parts).2 ⟨hbounds, hparts.flip⟩
    exact (hbounded.imp fun border part h => Size.parse_padded h.1.1 h.1.2 h.2).flip
  have hne : parts ≠ [] := by
    rintro rfl
    exact b.ne_nil (List.forall₂_nil_left_iff.1 hparts)
  have hpieces (part : String) (border : ℤ) (h : Padded part (Size.spelledLabel border)) :
      ',' ∉ part.toList ∧ Text.isBlankText part = false := by
    obtain ⟨c, hc⟩ := List.exists_mem_of_ne_nil _ (Size.spelledLabel_ne_nil border)
    exact ⟨h.not_mem (by decide) (Size.not_mem_spelledLabel rfl (by decide) rfl border),
      h.not_isBlankText hc (Size.not_isBlank_of_mem_spelledLabel hc)⟩
  have hall := (List.forall₂_and_left parts b.values).1 (hparts.imp fun part border h =>
    ⟨hpieces part border h, h⟩)
  rw [parse_eq_ok_iff, sizesIn_intercalate hne hall.1]
  exact hread

/-- Borders with labels in three units. -/
def threeUnits : Borders := ⟨[0, 1536, 4096, 1048576], by decide, by decide, by decide⟩

/-- The labels of a header, separated by commas and blanks. -/
theorem parse_labels_threeUnits :
    (∀ border ∈ threeUnits.values, border ≤ 2 ^ 53) ∧
      threeUnits.labels (some maxDigits) = .ok ["0B", "1536B", "4KiB", "1MiB", ">1MiB"] ∧
      parse "0B, 1536B, 4KiB ,\t1MiB" = .ok threeUnits := by
  have hbounds : ∀ border ∈ threeUnits.values, border ≤ 2 ^ 53 := by decide
  obtain ⟨labels, hlabels, hread⟩ := parse_labels threeUnits hbounds
  have hspelled : threeUnits.spelledLabels = ["0B", "1536B", "4KiB", "1MiB", ">1MiB"] := by
    decide +kernel
  have hshown : labels = ["0B", "1536B", "4KiB", "1MiB", ">1MiB"] :=
    (labels_eq_ok_iff.1 hlabels).2.trans hspelled
  have hparts : List.Forall₂ Padded ["0B", " 1536B", " 4KiB ", "\t1MiB"] labels.dropLast := by
    rw [hshown]
    exact .cons ⟨"", "", rfl, rfl, rfl⟩ (.cons ⟨" ", "", rfl, rfl, rfl⟩
      (.cons ⟨" ", " ", rfl, rfl, rfl⟩ (.cons ⟨"\t", "", rfl, rfl, rfl⟩ .nil)))
  exact ⟨hbounds, hshown ▸ hlabels, hread _ hparts⟩

end Borders

end UsageLedger
