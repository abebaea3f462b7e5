/-
UsageLedger/Proofs/Text/Aligned.lean

Numbers in columns.  A number is read as blanks, perhaps a minus sign, and decimal
digits to the end of the text.  Neither blanks nor zeros in front of it change what is
read, so a number is read back from its column however wide the column is
(`number?_padStart`, `number?_zeroFill`).  Nothing but its digits, its sign and what
fills the column up stands there, and the column is as wide as it has to be.
-/
import UsageLedger.Text.Align
import UsageLedger.Text.Digit

namespace UsageLedger.Text

variable {c : Char} {n : Nat}

/-! ### Decimal digits -/

theorem isAsciiDigit_of_mem_toDigits (h : c ∈ Nat.toDigits 10 n) : isAsciiDigit c = true :=
  Nat.isDigit_of_mem_toDigits (by decide) (by decide) h

theorem digitsValue_toDigits (n : Nat) : digitsValue (Nat.toDigits 10 n) = n := by
  have hfold : ∀ (cs : List Char) (init : Nat),
      cs.foldl (fun n c => n * 10 + (c.toNat - 48)) init = Nat.ofDigitChars 10 cs init := by
    intro cs init
    rw [Nat.ofDigitChars_eq_foldl]
    congr 1
    funext m c
    rw [Nat.mul_comm]
    rfl
  rw [digitsValue, hfold, Nat.ofDigitChars_ten_toDigits]

/-- Digits behind others move these up by one place each. -/
theorem foldl_digits (ds : List Char) (n : Nat) :
    ds.foldl (fun n c => n * 10 + (c.toNat - 48)) n = n * 10 ^ ds.length + digitsValue ds := by
  induction ds generalizing n with
  | nil => simp [digitsValue]
  | cons c ds ih =>
    rw [digitsValue, List.foldl_cons, List.foldl_cons, ih, ih (0 * 10 + _), List.length_cons, Nat.zero_mul,
      Nat.zero_add, Nat.pow_succ', Nat.add_mul, Nat.mul_assoc, Nat.add_assoc]

theorem digitsValue_append (ds ds' : List Char) :
    digitsValue (ds ++ ds') = digitsValue ds * 10 ^ ds'.length + digitsValue ds' := by
  rw [digitsValue, List.foldl_append, foldl_digits]
  rfl

/-- Zeros in front of digits do not count. -/
theorem digitsValue_zeros (k : Nat) (ds : List Char) :
    digitsValue (List.replicate k '0' ++ ds) = digitsValue ds := by
  induction k with
  | zero => rfl
  | succ k ih => exact ih

theorem isAsciiDigit_of_mem_takeDigits {cs : List Char} (h : c ∈ (takeDigits cs).1) :
    isAsciiDigit c = true :=
  List.all_eq_true.1 List.all_takeWhile c h

/-- Digits end where something else follows. -/
theorem takeDigits_digits_append {ds rest : List Char} (hdigits : ∀ c ∈ ds, isAsciiDigit c = true)
    (hrest : ∀ c ∈ rest.head?, isAsciiDigit c = false) : takeDigits (ds ++ rest) = (ds, rest) := by
  unfold takeDigits
  rw [List.takeWhile_append_of_pos hdigits, List.dropWhile_append_of_pos hdigits]
  cases rest with
  | nil => simp
  | cons c more =>
    have hc := hrest c rfl
    rw [List.takeWhile_cons_of_neg (by simp [hc]), List.dropWhile_cons_of_neg (by simp [hc]),
      List.append_nil]

/-! ### Reading a number -/

/-- The number that digits spell; none if there are none, or something else among them. -/
def natural? (cs : List Char) : Option Nat :=
  if !cs.isEmpty && cs.all isAsciiDigit then some (digitsValue cs) else none

/-- The number that stands in a column: blanks, perhaps a minus sign, and digits to the end. -/
def number? (cs : List Char) : Option Int :=
  match cs.dropWhile (· == ' ') with
  | '-' :: digits => (natural? digits).map fun n => -Int.ofNat n
  | digits => (natural? digits).map Int.ofNat

theorem natural?_zeros (k n : Nat) :
    natural? (List.replicate k '0' ++ Nat.toDigits 10 n) = some n := by
  have hne : (List.replicate k '0' ++ Nat.toDigits 10 n).isEmpty = false := by
    simp [Nat.toDigits_ne_nil]
  have hdigits : (List.replicate k '0' ++ Nat.toDigits 10 n).all isAsciiDigit = true := by
    refine List.all_eq_true.2 fun c hc => ?_
    rcases List.mem_append.1 hc with hc | hc
    · rw [List.eq_of_mem_replicate hc]
      rfl
    · exact isAsciiDigit_of_mem_toDigits hc
  rw [natural?, hne, hdigits, digitsValue_zeros, digitsValue_toDigits]
  rfl

theorem natural?_toDigits (n : Nat) : natural? (Nat.toDigits 10 n) = some n := natural?_zeros 0 n

/-- What begins with a digit is read without a sign. -/
theorem number?_of_isAsciiDigit (hc : isAsciiDigit c = true) (cs : List Char) :
    number? (c :: cs) = (natural? (c :: cs)).map Int.ofNat := by
  have hblank : (c == ' ') = false := by
    rw [beq_eq_false_iff_ne]
    rintro rfl
    cases hc
  unfold number?
  rw [List.dropWhile_cons_of_neg (by simp [hblank])]
  split
  · rename_i heq
    cases (List.cons.inj heq).1
    cases hc
  · rfl

theorem number?_blanks (k : Nat) (cs : List Char) :
    number? (List.replicate k ' ' ++ cs) = number? cs := by
  unfold number?
  rw [List.dropWhile_append_of_pos]
  intro c hc
  rw [List.eq_of_mem_replicate hc]
  rfl

/-- The characters that a whole number is written with. -/
theorem toList_toString_int (n : Int) :
    (toString n).toList = if n < 0 then '-' :: Nat.toDigits 10 n.natAbs else Nat.toDigits 10 n.natAbs := by
  cases n with
  | ofNat m => exact Nat.toList_repr
  | negSucc m =>
    show ("-" ++ Nat.repr (m + 1)).toList = _
    rw [String.toList_append, Nat.toList_repr, if_pos (Int.negSucc_lt_zero m)]
    rfl

theorem number?_toString (n : Int) : number? (toString n).toList = some n := by
  rw [toList_toString_int]
  split
  · have hsign : number? ('-' :: Nat.toDigits 10 n.natAbs) =
        (natural? (Nat.toDigits 10 n.natAbs)).map fun n => -Int.ofNat n := rfl
    rw [hsign, natural?_toDigits, Option.map_some, Option.some_inj]
    show -(n.natAbs : Int) = n
    omega
  · obtain ⟨c, ds, hds⟩ := List.exists_cons_of_ne_nil (@Nat.toDigits_ne_nil n.natAbs 10)
    have hc : isAsciiDigit c = true := isAsciiDigit_of_mem_toDigits (hds ▸ List.mem_cons_self)
    rw [hds, number?_of_isAsciiDigit hc, ← hds, natural?_toDigits, Option.map_some, Option.some_inj]
    show (n.natAbs : Int) = n
    omega

/-! ### Columns -/

theorem toList_padStart (width : Nat) (s : String) :
    (padStart width s).toList = List.replicate (width - s.length) ' ' ++ s.toList := by
  rw [padStart, String.toList_append, String.toList_ofList]

theorem toList_padEnd (width : Nat) (s : String) :
    (padEnd width s).toList = s.toList ++ List.replicate (width - s.length) ' ' := by
  rw [padEnd, String.toList_append, String.toList_ofList]

theorem length_toString_nat (n : Nat) : (toString n).length = (Nat.toDigits 10 n).length := by
  rw [← String.length_toList]
  exact congrArg List.length Nat.toList_repr

/-- A number that is not negative, filled up with zeros. -/
theorem toList_zeroFill (width n : Nat) :
    (zeroFill width n).toList =
      List.replicate (width - (Nat.toDigits 10 n).length) '0' ++ Nat.toDigits 10 n := by
  unfold zeroFill
  rw [if_neg (by omega), String.toList_append, String.toList_ofList, Int.natAbs_natCast,
    length_toString_nat]
  exact congrArg _ Nat.toList_repr

theorem number?_padStart (width : Nat) (n : Int) :
    number? (padStart width (toString n)).toList = some n := by
  rw [toList_padStart, number?_blanks, number?_toString]

theorem number?_zeroFill (width n : Nat) : number? (zeroFill width n).toList = some (n : Int) := by
  have hall := natural?_zeros (width - (Nat.toDigits 10 n).length) n
  rw [toList_zeroFill]
  generalize hcs : List.replicate (width - (Nat.toDigits 10 n).length) '0' ++ Nat.toDigits 10 n = cs at hall
  cases cs with
  | nil => cases hall
  | cons c cs =>
    have hc : isAsciiDigit c = true := by
      cases hd : isAsciiDigit c with
      | true => rfl
      | false => simp [natural?, hd] at hall
    rw [number?_of_isAsciiDigit hc, hall]
    rfl

theorem length_padStart (width : Nat) (s : String) :
    (padStart width s).length = max width s.length := by
  rw [← String.length_toList, toList_padStart, List.length_append, List.length_replicate,
    String.length_toList]
  omega

theorem length_padEnd (width : Nat) (s : String) : (padEnd width s).length = max width s.length := by
  rw [← String.length_toList, toList_padEnd, List.length_append, List.length_replicate,
    String.length_toList]
  omega

theorem length_zeroFill (width n : Nat) :
    (zeroFill width n).length = max width (toString n).length := by
  rw [← String.length_toList, toList_zeroFill, List.length_append, List.length_replicate,
    length_toString_nat]
  omega

/-- A character that is no digit and no minus sign does not stand in a number. -/
theorem not_mem_toString (hd : isAsciiDigit c = false) (hm : c ≠ '-') (n : Int) :
    c ∉ (toString n).toList := by
  have hdigits : c ∉ Nat.toDigits 10 n.natAbs := by
    intro hc
    rw [isAsciiDigit_of_mem_toDigits hc] at hd
    cases hd
  rw [toList_toString_int]
  split
  · exact fun hc => (List.mem_cons.1 hc).elim hm hdigits
  · exact hdigits

theorem not_mem_zeroFill (hd : isAsciiDigit c = false) (width n : Nat) :
    c ∉ (zeroFill width n).toList := by
  rw [toList_zeroFill]
  intro hc
  rcases List.mem_append.1 hc with hc | hc
  · rw [List.eq_of_mem_replicate hc] at hd
    cases hd
  · rw [isAsciiDigit_of_mem_toDigits hc] at hd
    cases hd

theorem not_mem_padStart (hc : c ≠ ' ') {s : String} (hs : c ∉ s.toList) (width : Nat) :
    c ∉ (padStart width s).toList := by
  rw [toList_padStart]
  exact fun h => (List.mem_append.1 h).elim (fun h => hc (List.eq_of_mem_replicate h)) hs

theorem not_mem_padEnd (hc : c ≠ ' ') {s : String} (hs : c ∉ s.toList) (width : Nat) :
    c ∉ (padEnd width s).toList := by
  rw [toList_padEnd]
  exact fun h => (List.mem_append.1 h).elim hs fun h => hc (List.eq_of_mem_replicate h)

end UsageLedger.Text
