/-
UsageLedger/Proofs/Elapsed.lean

Elapsed times are read back.  From a minute on, the text of a whole number of seconds
begins with its parts, so many hours, minutes and seconds, of which those that are zero
are left out (`Clock.parts_eq`).  There always is a part, for a minute is one, and the
parts come to the whole time (`shownAs_ofWhole`).

The parts stand before the first parenthesis, with blanks between them, and each of them
is digits and the letter of its unit.  So they are found again in the text (`read?_text`),
and different times have different texts (`text_readable`).
-/
import Mathlib.Data.Rat.Floor
import UsageLedger.Elapsed
import UsageLedger.Proofs.Number.Whole
import UsageLedger.Proofs.Text.Aligned
import UsageLedger.Text.Pieces

namespace UsageLedger.Elapsed

open Number

/-! ### Parts of a time -/

/-- The units of a time, the largest first. -/
inductive TimeUnit
  | hours
  | minutes
  | seconds
  deriving DecidableEq

namespace TimeUnit

/-- All units. -/
def all : List TimeUnit := [hours, minutes, seconds]

/-- The letter of a unit. -/
def letter : TimeUnit → Char
  | hours => 'h'
  | minutes => 'm'
  | seconds => 's'

/-- The seconds of a unit. -/
def worth : TimeUnit → ℕ
  | hours => 3600
  | minutes => 60
  | seconds => 1

end TimeUnit

/-- So many of a unit. -/
structure Part where
  count : ℕ
  unit : TimeUnit

namespace Part

/-- A part as it is written: its number and the letter of its unit. -/
def text (p : Part) : String := toString p.count ++ String.singleton p.unit.letter

/-- The seconds of a part. -/
def worth (p : Part) : ℕ := p.count * p.unit.worth

end Part

/-- The seconds of some parts. -/
def worth (parts : List Part) : ℕ := (parts.map Part.worth).sum

variable {parts : List Part} {c : Clock} {q : Quantity} {s : ℤ}

/-- Parts that show a time: at least one, of different units, the larger before the smaller, none of
them zero, less than sixty of a unit that there is a larger one for, and together the time. -/
structure ShownAs (s : ℤ) (parts : List Part) : Prop where
  ne_nil : parts ≠ []
  inOrder : (parts.map Part.unit).Sublist TimeUnit.all
  ne_zero : ∀ p ∈ parts, p.count ≠ 0
  lt_sixty : ∀ p ∈ parts, p.unit ≠ .hours → p.count < 60
  worth_eq : (worth parts : ℤ) = s

/-- Hours, minutes and seconds of a clock. -/
def Clock.hands (c : Clock) : List Part :=
  [⟨c.hours.toNat, .hours⟩, ⟨c.minutes.toNat, .minutes⟩, ⟨c.seconds.toNat, .seconds⟩]

/-- The parts of a clock that are shown. -/
def Clock.shown (c : Clock) : List Part := c.hands.filter fun p => p.count ≠ 0

/-- Parts that are zero are worth nothing. -/
theorem worth_filter (parts : List Part) : worth (parts.filter fun p => p.count ≠ 0) = worth parts := by
  induction parts with
  | nil => rfl
  | cons p rest ih =>
    unfold worth at ih ⊢
    rw [List.filter_cons]
    by_cases hp : p.count = 0
    · rw [if_neg (by simpa using hp), ih, List.map_cons, List.sum_cons, Part.worth, hp, Nat.zero_mul,
        Nat.zero_add]
    · rw [if_pos (by simpa using hp), List.map_cons, List.sum_cons, ih, List.map_cons, List.sum_cons]

/-- One hand of a clock, as it is written unless it is zero. -/
theorem map_text_hand {n : ℤ} (h : 0 ≤ n) (u : TimeUnit) :
    (([⟨n.toNat, u⟩] : List Part).filter fun p => p.count ≠ 0).map Part.text =
      if n > 0 then [toString n ++ String.singleton u.letter] else [] := by
  obtain ⟨k, rfl⟩ := Int.eq_ofNat_of_zero_le h
  by_cases hk : k = 0
  · subst hk
    rfl
  · have hpos : (k : ℤ) > 0 := by omega
    have hcount : ((k : ℤ).toNat ≠ 0) := by omega
    rw [List.filter_cons_of_pos (by simpa using hcount), if_pos hpos]
    rfl

/-- What is written of a clock, unless all of it is zero: the parts that are shown. -/
theorem Clock.parts_eq (hhours : 0 ≤ c.hours) (hminutes : 0 ≤ c.minutes) (hseconds : 0 ≤ c.seconds)
    (hne : c.shown ≠ []) : c.parts = c.shown.map Part.text := by
  have hshown : c.shown.map Part.text =
      ((if c.hours > 0 then [toString c.hours ++ "h"] else []) ++
        (if c.minutes > 0 then [toString c.minutes ++ "m"] else [])) ++
          (if c.seconds > 0 then [toString c.seconds ++ "s"] else []) := by
    have hhands : c.hands = ([⟨c.hours.toNat, .hours⟩] ++ [⟨c.minutes.toNat, .minutes⟩]) ++
        [⟨c.seconds.toNat, .seconds⟩] := rfl
    rw [Clock.shown, hhands, List.filter_append, List.filter_append, List.map_append, List.map_append,
      map_text_hand hhours, map_text_hand hminutes, map_text_hand hseconds]
    rfl
  have hmap : c.shown.map Part.text ≠ [] := fun h => hne (List.map_eq_nil_iff.1 h)
  rw [hshown] at hmap ⊢
  unfold Clock.parts
  dsimp only
  generalize (if c.hours > 0 then [toString c.hours ++ "h"] else []) ++
    (if c.minutes > 0 then [toString c.minutes ++ "m"] else []) = larger at hmap ⊢
  -- Without seconds there is something larger, so the seconds are left out.
  by_cases hs : c.seconds > 0
  · rw [if_pos hs, if_pos (by simp [hs])]
  · rw [if_neg hs] at hmap ⊢
    rw [if_neg]
    simpa [hs] using hmap

/-- **A time from a minute on** is shown as its hours, minutes and seconds. -/
theorem shownAs_ofWhole (h : 60 ≤ s) : ShownAs s (Clock.ofWhole s).shown := by
  have hworth : (worth (Clock.ofWhole s).shown : ℤ) = s := by
    rw [Clock.shown, worth_filter]
    simp only [worth, Clock.hands, Clock.ofWhole, Part.worth, TimeUnit.worth, List.map_cons, List.map_nil,
      List.sum_cons, List.sum_nil]
    omega
  refine ⟨fun hnil => ?_, List.filter_sublist.map Part.unit, fun p hp => ?_, fun p hp hunit => ?_, hworth⟩
  · rw [hnil] at hworth
    have hzero : (0 : ℤ) = s := hworth
    omega
  · simpa using (List.mem_filter.1 hp).2
  · have hhand : p ∈ (Clock.ofWhole s).hands := (List.mem_filter.1 hp).1
    simp only [Clock.hands, Clock.ofWhole, List.mem_cons, List.not_mem_nil, or_false] at hhand
    rcases hhand with rfl | rfl | rfl
    · exact absurd rfl hunit
    · dsimp only
      omega
    · dsimp only
      omega

/-! ### Reading the parts -/

/-- The unit with a letter. -/
def TimeUnit.ofLetter? (c : Char) : Option TimeUnit := all.find? fun u => u.letter == c

/-- The part that is written as digits and the letter of a unit. -/
def Part.ofChars? (cs : List Char) : Option Part :=
  match Text.takeDigits cs with
  | (digits, [c]) => do return ⟨← Text.natural? digits, ← TimeUnit.ofLetter? c⟩
  | _ => none

/-- The seconds of the parts that stand before the first parenthesis and the blank before it. -/
def read? (text : String) : Option ℕ :=
  ((Text.pieces ' ' (text.toList.takeWhile (· != '(')).dropLast).mapM Part.ofChars?).map worth

theorem Part.toList_text (p : Part) : p.text.toList = Nat.toDigits 10 p.count ++ [p.unit.letter] := by
  rw [Part.text, String.toList_append, String.toList_singleton]
  exact congrArg (· ++ _) Nat.toList_repr

theorem Part.ofChars?_text (p : Part) : ofChars? p.text.toList = some p := by
  obtain ⟨n, u⟩ := p
  have hletter : Text.isAsciiDigit u.letter = false := by cases u <;> decide
  have hunit : TimeUnit.ofLetter? u.letter = some u := by cases u <;> decide
  have hdigits : Text.takeDigits (Nat.toDigits 10 n ++ [u.letter]) = (Nat.toDigits 10 n, [u.letter]) :=
    Text.takeDigits_digits_append (fun c hc => Text.isAsciiDigit_of_mem_toDigits hc)
      (fun c hc => Option.some.inj hc ▸ hletter)
  unfold ofChars?
  rw [Part.toList_text, hdigits]
  dsimp only
  rw [Text.natural?_toDigits, hunit]
  rfl

/-- No parenthesis and no blank stands in a part. -/
theorem Part.not_mem_text {c : Char} (hd : Text.isAsciiDigit c = false)
    (hl : ∀ u : TimeUnit, u.letter ≠ c) (p : Part) : c ∉ p.text.toList := by
  rw [Part.toList_text]
  intro hc
  rcases List.mem_append.1 hc with hc | hc
  · rw [Text.isAsciiDigit_of_mem_toDigits hc] at hd
    cases hd
  · exact hl p.unit (List.mem_singleton.1 hc).symm

/-- Parts as they are written, with blanks between them. -/
def joined (parts : List Part) : String := " ".intercalate (parts.map Part.text)

theorem toList_joined (parts : List Part) :
    (joined parts).toList = [' '].intercalate (parts.map fun p => p.text.toList) := by
  rw [joined, String.toList_intercalate, List.map_map]
  rfl

theorem not_mem_joined (parts : List Part) : '(' ∉ (joined parts).toList := by
  rw [toList_joined]
  intro hc
  rcases Text.mem_of_mem_intercalate hc with hc | ⟨piece, hpiece, hc⟩
  · cases hc
  · obtain ⟨p, -, rfl⟩ := List.mem_map.1 hpiece
    exact p.not_mem_text rfl (fun u => by cases u <;> decide) hc

/-- **The parts are read back** from what stands before the first parenthesis. -/
theorem read?_joined (hne : parts ≠ []) (rest : String) :
    read? (joined parts ++ " (" ++ rest) = some (worth parts) := by
  have hfront : ((joined parts ++ " (" ++ rest).toList.takeWhile (· != '(')).dropLast =
      (joined parts).toList := by
    have hbefore : ∀ c ∈ (joined parts).toList ++ [' '], (c != '(') = true := by
      intro c hc
      rw [bne_iff_ne]
      rintro rfl
      rcases List.mem_append.1 hc with hc | hc
      · exact not_mem_joined parts hc
      · cases List.mem_singleton.1 hc
    have hsplit : (joined parts ++ " (" ++ rest).toList =
        ((joined parts).toList ++ [' ']) ++ '(' :: rest.toList := by
      rw [String.toList_append, String.toList_append, List.append_assoc, List.append_assoc]
      rfl
    rw [hsplit, List.takeWhile_append_of_pos hbefore, List.takeWhile_cons_of_neg (by decide),
      List.append_nil, List.dropLast_concat]
  have hpieces : Text.pieces ' ' (joined parts).toList = parts.map fun p => p.text.toList := by
    rw [toList_joined]
    refine Text.pieces_intercalate ' ' (by simpa using hne) fun piece hpiece => ?_
    obtain ⟨p, -, rfl⟩ := List.mem_map.1 hpiece
    exact p.not_mem_text rfl (fun u => by cases u <;> decide)
  have hparts : (parts.map fun p => p.text.toList).mapM Part.ofChars? = some parts := by
    rw [List.mapM_map]
    have hread : (Part.ofChars? ∘ fun p => p.text.toList) = pure := funext Part.ofChars?_text
    rw [hread, List.mapM_pure, List.map_id']
    rfl
  unfold read?
  rw [hfront, hpieces, hparts]
  rfl

/-! ### Whole seconds -/

/-- A clock shows a whole number of seconds by its whole hours, minutes and seconds. -/
theorem ofQuantity?_of_isWhole (h : q.IsWhole s) (hpos : 0 < s) (hlt : s < 2 ^ 53) :
    Clock.ofQuantity? q = some (.ofWhole s) := by
  cases q with
  | whole n =>
    obtain rfl : n = s := h
    rfl
  | real x =>
    obtain ⟨n, rfl⟩ := Int.eq_ofNat_of_zero_le hpos.le
    have hn : n ≤ 2 ^ 53 := by exact_mod_cast hlt.le
    have hx : Binary64.HasValue x n := h.hasValue hpos
    have hrest : Binary64.HasValue (x.modulo 3600) (n % 3600 : ℕ) := hx.modulo hn
    have hrestle : n % 3600 ≤ 2 ^ 53 := (Nat.mod_le n 3600).trans hn
    have hours := (hx.floorDiv hn (d := 3600) (by decide) (by decide)).truncate?
    have minutes := (hrest.floorDiv hrestle (d := 60) (by decide) (by decide)).truncate?
    have seconds := (hrest.modulo hrestle (d := 60)).truncate?
    unfold Clock.ofQuantity? Clock.ofReal?
    dsimp only
    rw [hours, minutes, seconds, Int.floor_natCast, Int.floor_natCast, Int.floor_natCast]
    rfl

theorem exists_seconds (h : q.IsWhole s) (hs : s.natAbs < 2 ^ 53) : ∃ t, seconds q = .ok t := by
  obtain ⟨t, ht⟩ := h.exists_fixed? hs 1
  exact ⟨t ++ "s", by rw [seconds, ht]⟩

/-- From a minute on the text begins with the parts of the time. -/
theorem exists_text (h : q.IsWhole s) (hlow : 60 ≤ s) (hhigh : s < 2 ^ 53) :
    ∃ rest, text q = .ok (joined (Clock.ofWhole s).shown ++ " (" ++ rest) := by
  have hpos : 0 < s := by omega
  obtain ⟨total, htotal⟩ := exists_seconds h (by omega)
  have hminute : q.below (.whole 60) = false := by
    rw [h.below_whole hpos]
    exact decide_eq_false (by omega)
  have hparts : (Clock.ofWhole s).parts = (Clock.ofWhole s).shown.map Part.text := by
    refine Clock.parts_eq ?_ ?_ ?_ (shownAs_ofWhole hlow).ne_nil
    all_goals
      dsimp only [Clock.ofWhole]
      omega
  refine ⟨total ++ ")", ?_⟩
  unfold text
  rw [hminute, if_neg Bool.false_ne_true, ofQuantity?_of_isWhole h hpos hhigh]
  dsimp only
  rw [htotal, hparts, Except.map, joined, String.append_assoc, String.append_assoc]

/-- **Elapsed times are read back.**  The text of a whole number of seconds, from a minute on, begins
with parts that show the time, up to the first parenthesis and the blank before it; the time is read
from them, and no other time has the same text. -/
theorem text_readable (h : q.IsWhole s) (hlow : 60 ≤ s) (hhigh : s < 2 ^ 53) :
    ∃ (shown front rest : String) (parts : List Part),
      text q = .ok shown ∧ shown = front ++ " (" ++ rest ∧ '(' ∉ front.toList ∧
        front = " ".intercalate (parts.map Part.text) ∧ ShownAs s parts ∧ read? shown = some s.toNat ∧
        ∀ q' s', Quantity.IsWhole q' s' → 60 ≤ s' → s' < 2 ^ 53 → s' ≠ s → text q' ≠ .ok shown := by
  have hparts {s : ℤ} (hlow : 60 ≤ s) (rest : String) :
      read? (joined (Clock.ofWhole s).shown ++ " (" ++ rest) = some s.toNat := by
    have hshown := shownAs_ofWhole hlow
    have hworth := hshown.worth_eq
    rw [read?_joined hshown.ne_nil, Option.some_inj]
    omega
  obtain ⟨rest, hrest⟩ := exists_text h hlow hhigh
  refine ⟨_, _, rest, _, hrest, rfl, not_mem_joined _, rfl, shownAs_ofWhole hlow, hparts hlow rest, ?_⟩
  intro q' s' h' hlow' hhigh' hne htext
  obtain ⟨rest', hrest'⟩ := exists_text h' hlow' hhigh'
  -- Equal texts would be read as equal times.
  have hread := hparts hlow' rest'
  rw [Except.ok.inj (hrest'.symm.trans htext), hparts hlow rest, Option.some_inj] at hread
  omega

/-- An hour, no minute and five seconds, as a double. -/
def anHour : Quantity := .real (.finite false (3605 * 2 ^ 41) (-41))

theorem text_readable_anHour :
    anHour.IsWhole 3605 ∧ (60 : ℤ) ≤ 3605 ∧ (3605 : ℤ) < 2 ^ 53 ∧
      text anHour = .ok "1h 5s (3605.0s)" ∧ read? "1h 5s (3605.0s)" = some 3605 ∧
      text (.whole 3665) ≠ .ok "1h 5s (3605.0s)" := by
  have hwhole : anHour.IsWhole 3605 := by
    show Binary64.toRat? (.finite false (3605 * 2 ^ 41) (-41)) = _
    rw [Binary64.toRat?_finite]
    norm_num
  have htext : text anHour = .ok "1h 5s (3605.0s)" := by decide +kernel
  obtain ⟨shown, -, -, -, hshown, -, -, -, -, hread, hother⟩ :=
    text_readable hwhole (by decide) (by decide)
  obtain rfl : shown = "1h 5s (3605.0s)" := Except.ok.inj (hshown.symm.trans htext)
  exact ⟨hwhole, by decide, by decide, htext, hread,
    hother (.whole 3665) 3665 rfl (by decide) (by decide) (by decide)⟩

end UsageLedger.Elapsed
