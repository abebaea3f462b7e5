/-
UsageLedger/Proofs/Size/Reading.lean

What is read of a written size.  A size is taken apart if and only if it is written as
digits, perhaps a point and further digits, and letters (`ofChars?_eq_some_iff`), and
has a value if the letters are a unit (`Spells`).

The number is rounded to double precision, and so is its product with the unit
(`Spells.parse_cases`).  Where neither has to be rounded the size is exact
(`Spells.parse_exact`), as it is for whole numbers of units up to `2 ^ 53` bytes.
Beyond the range of double precision no size comes of it
(`parse_eq_outOfRange_iff`); what is no written size is refused.
-/
import Mathlib.Data.Rat.Floor
import UsageLedger.Proofs.Number.Decimal
import UsageLedger.Size

namespace UsageLedger.Size

open Number Binary64

variable {s : String} {cs : List Char} {p : Parts} {bytes : ℕ}

/-! ### Written sizes -/

/-- A text consists of these parts: digits, perhaps a point and further digits, and letters. -/
structure Parts.AreOf (p : Parts) (cs : List Char) : Prop where
  text : cs = p.whole ++ p.unit ∧ p.fraction = [] ∨ cs = p.whole ++ '.' :: (p.fraction ++ p.unit)
  ne_nil : p.whole ≠ []
  whole : ∀ c ∈ p.whole, Text.isAsciiDigit c = true
  fraction : ∀ c ∈ p.fraction, Text.isAsciiDigit c = true
  unit : ∀ c ∈ p.unit, isUnitLetter c = true

/-- The digits behind a point, and what follows them. -/
def fractionAt : List Char → List Char × List Char
  | '.' :: rest => Text.takeDigits rest
  | rest => ([], rest)

theorem fractionAt_of_ne (h : ∀ c ∈ cs.head?, c ≠ '.') : fractionAt cs = ([], cs) := by
  unfold fractionAt
  split
  · exact absurd rfl (h '.' rfl)
  · rfl

/-- What is cut off is a point with the digits behind it, or nothing. -/
theorem fractionAt_cases (cs : List Char) :
    (fractionAt cs).1 = [] ∧ cs = (fractionAt cs).2 ∨
      cs = '.' :: ((fractionAt cs).1 ++ (fractionAt cs).2) := by
  unfold fractionAt
  split
  · rename_i rest
    rw [Text.takeDigits_append]
    exact .inr rfl
  · exact .inl ⟨rfl, rfl⟩

theorem isAsciiDigit_of_mem_fractionAt {c : Char} (h : c ∈ (fractionAt cs).1) :
    Text.isAsciiDigit c = true := by
  unfold fractionAt at h
  split at h
  · exact Text.isAsciiDigit_of_mem_takeDigits h
  · cases h

theorem ofChars?_eq (cs : List Char) :
    Parts.ofChars? cs =
      if (Text.takeDigits cs).1.isEmpty ||
        !(fractionAt (Text.takeDigits cs).2).2.all isUnitLetter then none
      else some ⟨(Text.takeDigits cs).1, (fractionAt (Text.takeDigits cs).2).1,
        (fractionAt (Text.takeDigits cs).2).2⟩ := by
  unfold Parts.ofChars? fractionAt
  rfl

/-- A text is taken apart if and only if it consists of such parts. -/
theorem ofChars?_eq_some_iff : Parts.ofChars? cs = some p ↔ p.AreOf cs := by
  rw [ofChars?_eq]
  constructor
  · intro h
    split at h
    · cases h
    · rename_i hparts
      cases h
      rw [Bool.or_eq_true, not_or, Bool.not_eq_true, Bool.not_eq_true, Bool.not_eq_false'] at hparts
      obtain ⟨hempty, hletters⟩ := hparts
      refine ⟨?_, by simpa using hempty, fun c => Text.isAsciiDigit_of_mem_takeDigits,
        fun c => isAsciiDigit_of_mem_fractionAt, List.all_eq_true.1 hletters⟩
      have hcut := Text.takeDigits_append cs
      rcases fractionAt_cases (Text.takeDigits cs).2 with ⟨hnone, hrest⟩ | hrest
      · exact .inl ⟨by rw [← hrest, hcut], hnone⟩
      · exact .inr (by rw [← hrest, hcut])
  · obtain ⟨whole, fraction, unit⟩ := p
    rintro ⟨htext, hne, hwhole, hfraction, hunit⟩
    dsimp only at htext hne hwhole hfraction hunit
    have hletters : unit.all isUnitLetter = true := List.all_eq_true.2 hunit
    have hhead (c : Char) (hc : c ∈ unit.head?) :=
      not_digit_of_isUnitLetter (hunit c (List.mem_of_mem_head? hc))
    have hempty : whole.isEmpty = false := by simpa using hne
    rcases htext with ⟨rfl, rfl⟩ | rfl
    · rw [Text.takeDigits_digits_append hwhole fun c hc => (hhead c hc).1]
      dsimp only
      rw [fractionAt_of_ne fun c hc => (hhead c hc).2]
      simp [hempty, hletters]
    · have hpoint : fractionAt ('.' :: (fraction ++ unit)) = (fraction, unit) :=
        Text.takeDigits_digits_append hfraction fun c hc => (hhead c hc).1
      rw [Text.takeDigits_digits_append hwhole (by rintro c ⟨⟩; rfl)]
      dsimp only
      rw [hpoint]
      simp [hempty, hletters]

/-! ### Reading written sizes -/

/-- The number in front of the unit. -/
def Parts.value (p : Parts) : ℚ :=
  Text.digitsValue p.whole + Text.digitsValue p.fraction / 10 ^ p.fraction.length

theorem Parts.value_nonneg (p : Parts) : 0 ≤ p.value := by
  unfold Parts.value
  positivity

theorem Parts.value_eq (p : Parts) :
    (Text.digitsValue (p.whole ++ p.fraction) : ℚ) / 10 ^ p.fraction.length = p.value := by
  rw [Text.digitsValue_append, Parts.value]
  push_cast
  rw [add_div, mul_div_cancel_right₀]
  positivity

/-- Without a point the number is whole. -/
theorem Parts.value_of_fraction (h : p.fraction = []) : p.value = Text.digitsValue p.whole := by
  have hnone : Text.digitsValue [] = 0 := rfl
  rw [Parts.value, h, hnone, Nat.cast_zero, zero_div, add_zero]

/-- A text stands for a decimal number of a unit with so many bytes, whatever the case of its letters
and the blanks around it. -/
structure Spells (s : String) (p : Parts) (bytes : ℕ) : Prop where
  parts : p.AreOf (Text.strip s).toList
  unit : units.lookup (String.ofList (p.unit.map Char.toLower)) = some bytes

theorem Spells.bytes_range (h : Spells s p bytes) : 1 ≤ bytes ∧ bytes ≤ 2 ^ 50 := by
  have hall : ∀ u ∈ units, 1 ≤ u.2 ∧ u.2 ≤ 2 ^ 50 := by decide
  obtain ⟨l, l', hunits, -⟩ := List.lookup_eq_some_iff.1 h.unit
  exact hall (_, bytes) (hunits ▸ List.mem_append_right _ List.mem_cons_self)

theorem Spells.hasValue_bytes (h : Spells s p bytes) : HasValue (nearest false bytes 1) bytes := by
  have hdouble : IsDouble bytes := isDouble_natCast (by have := h.bytes_range; omega)
  have hlt := hdouble.lt_overflow
  rw [← div_one (bytes : ℚ), ← Nat.cast_one] at hlt
  obtain ⟨v, hv, hnearest⟩ := exists_nearest_of_lt Nat.one_ne_zero hlt
  rw [Nat.cast_one, div_one] at hnearest
  rwa [hnearest.eq_of_isDouble hdouble] at hv

theorem Spells.parse_eq (h : Spells s p bytes) :
    parse s = (p.number.mul (nearest false bytes 1)).truncate?.elim (.error .outOfRange) .ok := by
  unfold parse
  rw [ofChars?_eq_some_iff.2 h.parts]
  dsimp only
  rw [h.unit]
  dsimp only
  cases (p.number.mul (nearest false bytes 1)).truncate? <;> rfl

/-- The number is rounded to double precision, and so is its product with the unit; beyond the range
there is no size. -/
theorem Spells.parse_cases (h : Spells s p bytes) :
    (p.value < overflow ∧ ∃ x, IsNearest x p.value ∧
        (x * bytes < overflow ∧ (∃ y, IsNearest y (x * bytes) ∧ parse s = .ok ⌊y⌋) ∨
          (overflow : ℚ) ≤ x * bytes ∧ parse s = .error .outOfRange)) ∨
      (overflow : ℚ) ≤ p.value ∧ parse s = .error .outOfRange := by
  have hbytes := h.hasValue_bytes
  have hpos : (0 : ℚ) < bytes := by exact_mod_cast h.bytes_range.1
  rw [h.parse_eq]
  unfold Parts.number
  rcases lt_or_ge p.value (overflow : ℚ) with hlt | hge
  · rw [← p.value_eq] at hlt
    obtain ⟨x, hx, hnearest⟩ := exists_ofDecimal_of_lt hlt
    rw [p.value_eq] at hlt hnearest
    refine .inl ⟨hlt, x, hnearest, ?_⟩
    rw [hx.mul_eq hbytes]
    rcases lt_or_ge (x * bytes) (overflow : ℚ) with hlt | hge
    · obtain ⟨y, hy, hnearest'⟩ := exists_ofRat_of_lt (mul_nonneg hnearest.isDouble.nonneg hpos.le) hlt
      exact .inl ⟨hlt, y, hnearest', by rw [hy.truncate?, Option.elim_some]⟩
    · exact .inr ⟨hge, by rw [ofRat_of_overflow_le hge]; rfl⟩
  · rw [← p.value_eq] at hge
    refine .inr ⟨p.value_eq ▸ hge, ?_⟩
    rw [ofDecimal_of_overflow_le hge, hbytes.infinite_mul hpos.ne']
    rfl

/-- Where nothing has to be rounded, the size is exact. -/
theorem Spells.parse_exact (h : Spells s p bytes) (hvalue : IsDouble p.value)
    (hproduct : IsDouble (p.value * bytes)) : parse s = .ok ⌊p.value * bytes⌋ := by
  rcases h.parse_cases with ⟨-, x, hx, hparse⟩ | ⟨hge, -⟩
  · rw [hx.eq_of_isDouble hvalue] at hparse
    rcases hparse with ⟨-, y, hy, hparse⟩ | ⟨hge, -⟩
    · rw [hparse, hy.eq_of_isDouble hproduct]
    · exact absurd hproduct.lt_overflow hge.not_gt
  · exact absurd hvalue.lt_overflow hge.not_gt

/-- A whole number of units is read as it is, up to `2 ^ 53` bytes. -/
theorem Spells.parse_natCast (h : Spells s p bytes) {k : ℕ} (hvalue : p.value = k)
    (hle : k * bytes ≤ 2 ^ 53) : parse s = .ok (k * bytes : ℕ) := by
  have hpos := h.bytes_range.1
  have hproduct : p.value * bytes = (k * bytes : ℕ) := by
    rw [hvalue]
    push_cast
    rfl
  have hk : k ≤ 2 ^ 53 := (Nat.le_mul_of_pos_right k hpos).trans hle
  rw [h.parse_exact (hvalue ▸ isDouble_natCast hk) (hproduct ▸ isDouble_natCast hle), hproduct,
    Int.floor_natCast]

/-- Two roundings, each by a part in `2 ^ 53` at most, and the loss of what is below a byte. -/
theorem floor_between {a x y : ℚ} (hlow : 1 ≤ bytes) (hhigh : bytes ≤ 2 ^ 50) (ha₀ : 0 ≤ a)
    (ha : a < overflow) (hx : IsNearest x a) (hxu : x * bytes < overflow)
    (hy : IsNearest y (x * bytes)) :
    a * bytes * (1 - 1 / 2 ^ 53) ^ 2 < ⌊y⌋ + 1 ∧ (⌊y⌋ : ℚ) ≤ a * bytes * (1 + 1 / 2 ^ 53) ^ 2 := by
  have hone : (1 : ℚ) ≤ bytes := by exact_mod_cast hlow
  have hx₀ := hx.isDouble.nonneg
  rcases le_or_gt (2 ^ (-1021 : ℤ)) a with hle | hlt
  · have htwice : (2 : ℚ) ^ (-1021 : ℤ) = 2 ^ (-1022 : ℤ) * 2 := by
      rw [← zpow_add_one₀ two_ne_zero]
      norm_num
    have hleast : (0 : ℚ) < 2 ^ (-1022 : ℤ) := by positivity
    obtain ⟨hxlow, hxhigh⟩ := between_of_isNearest hx (by linarith only [hle, htwice, hleast]) ha
    have hscale : x ≤ x * bytes := le_mul_of_one_le_right hx₀ hone
    obtain ⟨hylow, hyhigh⟩ :=
      between_of_isNearest hy (by linarith only [hle, htwice, hleast, hxlow, hscale]) hxu
    -- The bounds have served; their powers are not to be computed.
    clear ha hxu
    constructor
    · calc a * bytes * (1 - 1 / 2 ^ 53) ^ 2 = a * (1 - 1 / 2 ^ 53) * bytes * (1 - 1 / 2 ^ 53) := by ring
        _ ≤ x * bytes * (1 - 1 / 2 ^ 53) := by
          gcongr
        _ ≤ y := hylow
        _ < ⌊y⌋ + 1 := Int.lt_floor_add_one y
    · calc (⌊y⌋ : ℚ) ≤ y := Int.floor_le y
        _ ≤ x * bytes * (1 + 1 / 2 ^ 53) := hyhigh
        _ ≤ a * (1 + 1 / 2 ^ 53) * bytes * (1 + 1 / 2 ^ 53) := by gcongr
        _ = a * bytes * (1 + 1 / 2 ^ 53) ^ 2 := by ring
  · -- So small a number has not even one byte.
    clear ha hxu
    have hproduct : a * bytes < 1 / 4 := by
      calc a * bytes < 2 ^ (-1021 : ℤ) * bytes := by gcongr
        _ ≤ 2 ^ (-1021 : ℤ) * 2 ^ (50 : ℤ) := by gcongr; exact_mod_cast hhigh
        _ = 2 ^ (-1021 + 50 : ℤ) := (zpow_add₀ two_ne_zero _ _).symm
        _ ≤ 2 ^ (-2 : ℤ) := zpow_le_zpow_right₀ one_le_two (by norm_num)
        _ = 1 / 4 := by norm_num
    have hfloor : ⌊y⌋ = 0 := by
      have hxa : x * bytes ≤ 2 * a * bytes := by
        gcongr
        exact hx.le_two_mul ha₀
      have hyx := hy.le_two_mul (mul_nonneg hx₀ (zero_le_one.trans hone))
      rw [Int.floor_eq_zero_iff]
      exact ⟨hy.isDouble.nonneg, by linarith only [hxa, hyx, hproduct]⟩
    have hpos : 0 ≤ a * bytes := by positivity
    rw [hfloor, Int.cast_zero]
    constructor
    · linarith only [hpos, hproduct]
    · positivity

/-- What is no written size is refused. -/
theorem exists_invalid_of_not_spells (h : ¬ ∃ p bytes, Spells s p bytes) :
    ∃ why, parse s = .error (.invalid why) := by
  unfold parse
  cases hp : Parts.ofChars? (Text.strip s).toList with
  | none => exact ⟨_, rfl⟩
  | some p =>
    dsimp only
    cases hu : units.lookup (String.ofList (p.unit.map Char.toLower)) with
    | none => exact ⟨_, rfl⟩
    | some bytes => exact absurd ⟨p, bytes, ofChars?_eq_some_iff.1 hp, hu⟩ h

/-- What is read is in the range of double precision. -/
theorem parse_range {size : ℤ} (h : parse s = .ok size) : 0 ≤ size ∧ size < overflow := by
  by_cases hspells : ∃ p bytes, Spells s p bytes
  · obtain ⟨p, bytes, hs⟩ := hspells
    rcases hs.parse_cases with ⟨-, x, -, ⟨-, y, hy, hok⟩ | ⟨-, hparse⟩⟩ | ⟨-, hparse⟩
    · obtain rfl := Except.ok.inj (hok.symm.trans h)
      have hlt : (⌊y⌋ : ℚ) < overflow := (Int.floor_le y).trans_lt hy.isDouble.lt_overflow
      exact ⟨Int.floor_nonneg.2 hy.isDouble.nonneg, by exact_mod_cast hlt⟩
    · cases hparse.symm.trans h
    · cases hparse.symm.trans h
  · obtain ⟨why, hinvalid⟩ := exists_invalid_of_not_spells hspells
    cases hinvalid.symm.trans h

/-- A written size of which the number, or its product with the unit, is beyond the range of double
precision. -/
def Vast (s : String) : Prop :=
  ∃ p bytes, Spells s p bytes ∧
    ((overflow : ℚ) ≤ p.value ∨ ∃ x, IsNearest x p.value ∧ (overflow : ℚ) ≤ x * bytes)

/-- Only such a size is neither read nor refused. -/
theorem parse_eq_outOfRange_iff : parse s = .error .outOfRange ↔ Vast s := by
  constructor
  · intro hparse
    by_cases hspells : ∃ p bytes, Spells s p bytes
    · obtain ⟨p, bytes, h⟩ := hspells
      refine ⟨p, bytes, h, ?_⟩
      rcases h.parse_cases with ⟨-, x, hx, ⟨-, y, -, hok⟩ | ⟨hge, -⟩⟩ | ⟨hge, -⟩
      · rw [hok] at hparse
        cases hparse
      · exact .inr ⟨x, hx, hge⟩
      · exact .inl hge
    · obtain ⟨why, hinvalid⟩ := exists_invalid_of_not_spells hspells
      rw [hinvalid] at hparse
      cases hparse
  · rintro ⟨p, bytes, h, hvast⟩
    rcases h.parse_cases with ⟨hvalue, x, hx, ⟨hlt, -⟩ | ⟨-, hparse⟩⟩ | ⟨-, hparse⟩
    · rcases hvast with hge | ⟨x', hx', hge⟩
      · exact absurd hvalue hge.not_gt
      · rw [hx'.unique hx] at hge
        exact absurd hlt hge.not_gt
    · exact hparse
    · exact hparse

/-- **Sizes are read as nearly as double precision allows.**  The number of a written size is rounded
to the nearest double precision number, its product with the unit is rounded once more, and what
is below a byte is dropped; so the size is off by two parts in `2 ^ 53` at most, and where neither
number has to be rounded it is exact.  Every other text is refused. -/
theorem parse_decimal (s : String) :
    (∀ p bytes, Spells s p bytes → p.value < overflow →
      ∃ x, IsNearest x p.value ∧ (x * bytes < overflow →
        ∃ y, IsNearest y (x * bytes) ∧ parse s = .ok ⌊y⌋ ∧
          p.value * bytes * (1 - 1 / 2 ^ 53) ^ 2 < ⌊y⌋ + 1 ∧
          (⌊y⌋ : ℚ) ≤ p.value * bytes * (1 + 1 / 2 ^ 53) ^ 2)) ∧
      (∀ p bytes, Spells s p bytes → IsDouble p.value → IsDouble (p.value * bytes) →
        parse s = .ok ⌊p.value * bytes⌋) ∧
      ((¬ ∃ p bytes, Spells s p bytes) → ∃ why, parse s = .error (.invalid why)) := by
  refine ⟨fun p bytes h hvalue => ?_, fun p bytes h => h.parse_exact, exists_invalid_of_not_spells⟩
  obtain ⟨hlow, hhigh⟩ := h.bytes_range
  rcases h.parse_cases with ⟨-, x, hx, hparse⟩ | ⟨hge, -⟩
  · refine ⟨x, hx, fun hproduct => ?_⟩
    rcases hparse with ⟨-, y, hy, hparse⟩ | ⟨hge, -⟩
    · exact ⟨y, hy, hparse, floor_between hlow hhigh p.value_nonneg hvalue hx hproduct hy⟩
    · exact absurd hproduct hge.not_gt
  · exact absurd hvalue hge.not_gt

/-- A number with one place, of decimal units. -/
def tenths : Parts := ⟨['4'], ['1'], ['m', 'b']⟩

theorem spells_tenths : Spells "4.1mb" tenths 1000000 :=
  ⟨⟨.inr (by decide +kernel), by decide, List.all_eq_true.1 rfl, List.all_eq_true.1 rfl,
    List.all_eq_true.1 rfl⟩, by decide +kernel⟩

theorem value_tenths : tenths.value = 41 / 10 := by
  have hwhole : Text.digitsValue tenths.whole = 4 := by decide
  have hfraction : Text.digitsValue tenths.fraction = 1 := by decide
  have hlength : tenths.fraction.length = 1 := rfl
  rw [Parts.value, hwhole, hfraction, hlength]
  norm_num

/-- **Not every size is read exactly.** -/
theorem parse_below_exact :
    Spells "4.1mb" tenths 1000000 ∧ tenths.value * 1000000 = 4100000 ∧
      parse "4.1mb" = .ok 4099999 := by
  refine ⟨spells_tenths, ?_, by decide +kernel⟩
  rw [value_tenths]
  norm_num

/-- A number with one place, of binary units. -/
def halves : Parts := ⟨['1'], ['5'], ['M', 'i', 'B']⟩

/-- Halves are exact, tenths are rounded twice. -/
theorem parse_decimal_places :
    (Spells " 1.5MiB " halves 1048576 ∧ parse " 1.5MiB " = .ok 1572864) ∧
      (Spells "4.1mb" tenths 1000000 ∧ tenths.value < overflow ∧
        ∃ x y, IsNearest x tenths.value ∧ IsNearest y (x * 1000000) ∧ parse "4.1mb" = .ok ⌊y⌋) := by
  have hhalves : Spells " 1.5MiB " halves 1048576 :=
    ⟨⟨.inr (by decide +kernel), by decide, List.all_eq_true.1 rfl, List.all_eq_true.1 rfl,
      List.all_eq_true.1 rfl⟩, by decide +kernel⟩
  have hvalue : halves.value = 3 / 2 := by
    have hwhole : Text.digitsValue halves.whole = 1 := by decide
    have hfraction : Text.digitsValue halves.fraction = 5 := by decide
    have hlength : halves.fraction.length = 1 := rfl
    rw [Parts.value, hwhole, hfraction, hlength]
    norm_num
  have hproduct : halves.value * (1048576 : ℕ) = (1572864 : ℕ) := by
    rw [hvalue]
    norm_num
  have hexact := (parse_decimal " 1.5MiB ").2.1 halves 1048576 hhalves
    (hvalue ▸ ⟨3, -1, by norm_num, by norm_num, by norm_num, by norm_num⟩)
    (hproduct ▸ isDouble_natCast (by norm_num))
  have hmillions : IsDouble (10000000 : ℕ) := isDouble_natCast (by norm_num)
  have hrange := hmillions.lt_overflow
  have htenths : tenths.value < overflow := by
    refine lt_trans ?_ hrange
    rw [value_tenths]
    norm_num
  obtain ⟨x, hx, hrest⟩ := (parse_decimal "4.1mb").1 tenths 1000000 spells_tenths htenths
  have hlt : x * (1000000 : ℕ) < overflow := by
    refine lt_of_le_of_lt ?_ hrange
    have hle := hx.le_two_mul tenths.value_nonneg
    rw [value_tenths] at hle
    push_cast
    linarith only [hle]
  obtain ⟨y, hy, hparse, -⟩ := hrest hlt
  rw [hproduct, Int.floor_natCast] at hexact
  exact ⟨⟨hhalves, hexact⟩, spells_tenths, htenths, x, y, hx, by exact_mod_cast hy, hparse⟩

end UsageLedger.Size
