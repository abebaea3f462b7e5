/-
UsageLedger/Proofs/Json/Scalars.lean

What is written of a string, a number or a word is read as one token.  A string is read
back whichever of its characters are escaped, and a pair of escapes never joins two
characters, since no character is half of a surrogate pair (`string?_escaped`).  A whole
number is read back if what follows it does not go on with it (`tokenAt_int`).  Whatever
is written is plain text (`TokenAt`).
-/
import UsageLedger.Json.Parser
import UsageLedger.Json.Printer
import UsageLedger.Proofs.Text.Aligned
import UsageLedger.Proofs.Text.Lines

namespace UsageLedger

/-! ### Hexadecimal digits -/

namespace Text

theorem hexValue?_hexDigit {n : Nat} (h : n < 16) : hexValue? (hexDigit n) = some n := by
  have hall : ∀ n < 16, hexValue? (hexDigit n) = some n := by decide
  exact hall n h

theorem ofHex?_hex (width n : Nat) : ofHex? (hex width n) = some (n % 16 ^ width) := by
  induction width generalizing n with
  | zero => simp [hex, ofHex?, Nat.mod_one]
  | succ width ih =>
    have hdigit : n % 16 < 16 := Nat.mod_lt n (by decide)
    have hvalue : n / 16 % 16 ^ width * 16 + n % 16 = n % 16 ^ (width + 1) := by
      rw [Nat.pow_succ, Nat.mul_comm (16 ^ width), Nat.mod_mul]
      omega
    unfold ofHex? at ih ⊢
    rw [hex, List.foldlM_append, ih, ← hvalue]
    show (hexValue? (hexDigit (n % 16))).map _ >>= pure = _
    rw [hexValue?_hexDigit hdigit]
    rfl

end Text

namespace Json

open Number

variable {c : Char} {cs rest tail : List Char} {n high low : Nat} {k : Int} {limits : Limits}

/-! ### Strings -/

/-- The escape of a number below `2 ^ 16`. -/
theorem ofHex?_hex_four (h : n < 0x10000) : Text.ofHex? (Text.hex 4 n) = some n := by
  rw [Text.ofHex?_hex, Nat.mod_eq_of_lt h]

theorem string?_quote (rest : List Char) : string? ('"' :: rest) = some ([], rest) := by
  rw [string?]

theorem string?_plain (hquote : c ≠ '"') (hbackslash : c ≠ '\\') (hnul : c.toNat ≠ 0)
    (htail : string? tail = some (cs, rest)) : string? (c :: tail) = some (c :: cs, rest) := by
  rw [string?.eq_6, htail]
  · simp [hbackslash, hnul]
  · exact hquote
  · intro _ _ _ _ _ _ _ _ _ h
    exact absurd h hbackslash
  · intro _ _ _ _ _ h
    exact absurd h hbackslash
  · intro _ _ h
    exact absurd h hbackslash

theorem string?_simple {e : Char} (hu : c ≠ 'u') (he : simpleEscape? c = some e)
    (htail : string? tail = some (cs, rest)) : string? ('\\' :: c :: tail) = some (e :: cs, rest) := by
  rw [string?.eq_5, he, htail]
  · rfl
  · intro _ _ _ _ _ _ _ _ _ h
    exact absurd h hu
  · intro _ _ _ _ _ h
    exact absurd h hu

/-- Whatever is read after an escape, its digits are hexadecimal. -/
theorem exists_ofHex?_of_string? {e f g h : Char}
    (hread : string? ('\\' :: 'u' :: e :: f :: g :: h :: tail) = some (cs, rest)) :
    ∃ n, Text.ofHex? [e, f, g, h] = some n := by
  by_cases hpair : ∃ i j k l more, tail = '\\' :: 'u' :: i :: j :: k :: l :: more
  · obtain ⟨i, j, k, l, more, rfl⟩ := hpair
    rw [string?.eq_3] at hread
    split at hread
    · rename_i high _ hhigh _
      exact ⟨high, hhigh⟩
    · cases hread
  · rw [string?.eq_4 _ _ _ _ _ fun i j k l more h => hpair ⟨i, j, k, l, more, h⟩] at hread
    obtain ⟨n, hn, -⟩ := Option.bind_eq_some_iff.1 hread
    exact ⟨n, hn⟩

/-- An escape that is not the first half of a pair stands for a character of its own. -/
theorem string?_unit {e f g h : Char} (hn : Text.ofHex? [e, f, g, h] = some n)
    (halone : isHighSurrogate n = false) (htail : string? tail = some (cs, rest)) :
    string? ('\\' :: 'u' :: e :: f :: g :: h :: tail) = some (codePoint n :: cs, rest) := by
  by_cases hpair : ∃ i j k l more, tail = '\\' :: 'u' :: i :: j :: k :: l :: more
  · obtain ⟨i, j, k, l, more, rfl⟩ := hpair
    obtain ⟨low, hlow⟩ := exists_ofHex?_of_string? htail
    rw [string?.eq_3, hn, hlow]
    simp [halone, htail]
  · rw [string?.eq_4 _ _ _ _ _ fun i j k l more h => hpair ⟨i, j, k, l, more, h⟩, hn, htail]
    rfl

/-- Two escapes that are the halves of a pair stand for one character. -/
theorem string?_pair {e f g h i j k l : Char} (hhigh : Text.ofHex? [e, f, g, h] = some high)
    (hlow : Text.ofHex? [i, j, k, l] = some low) (hfirst : isHighSurrogate high = true)
    (hsecond : isLowSurrogate low = true) (htail : string? tail = some (cs, rest)) :
    string? ('\\' :: 'u' :: e :: f :: g :: h :: '\\' :: 'u' :: i :: j :: k :: l :: tail) =
      some (Char.ofNat (0x10000 + (high - 0xd800) * 0x400 + (low - 0xdc00)) :: cs, rest) := by
  rw [string?.eq_3, hhigh, hlow]
  simp [hfirst, hsecond, htail]

theorem string?_unicodeEscape (htail : string? tail = some (cs, rest)) :
    string? (unicodeEscape c ++ tail) = some (c :: cs, rest) := by
  have hvalid : c.toNat < 0xd800 ∨ 0xdfff < c.toNat ∧ c.toNat < 0x110000 := c.valid
  unfold unicodeEscape
  dsimp only
  split
  · rename_i hbasic
    have hhigh : isHighSurrogate c.toNat = false := by
      unfold isHighSurrogate
      simp
      omega
    have hself : codePoint c.toNat = c := by
      have hlow : isLowSurrogate c.toNat = false := by
        unfold isLowSurrogate
        simp
        omega
      unfold codePoint
      rw [hhigh, hlow, Bool.or_self, if_neg Bool.false_ne_true, Char.ofNat_toNat]
    have hread := string?_unit (ofHex?_hex_four hbasic) hhigh htail
    rw [hself] at hread
    exact hread
  · rename_i hbeyond
    -- The two halves of the number above the basic plane.
    have hupper : (c.toNat - 0x10000) / 0x400 < 0x400 := by omega
    have hlower : (c.toNat - 0x10000) % 0x400 < 0x400 := Nat.mod_lt _ (by decide)
    have hjoin : 0x10000 + (0xd800 + (c.toNat - 0x10000) / 0x400 - 0xd800) * 0x400 +
        (0xdc00 + (c.toNat - 0x10000) % 0x400 - 0xdc00) = c.toNat := by omega
    have hfirst : isHighSurrogate (0xd800 + (c.toNat - 0x10000) / 0x400) = true := by
      unfold isHighSurrogate
      simp
      omega
    have hsecond : isLowSurrogate (0xdc00 + (c.toNat - 0x10000) % 0x400) = true := by
      unfold isLowSurrogate
      simp
      omega
    have hread := string?_pair (ofHex?_hex_four (by omega)) (ofHex?_hex_four (by omega)) hfirst hsecond htail
    rw [hjoin, Char.ofNat_toNat] at hread
    exact hread

/-- The three ways in which a character is written: by a letter or sign that stands for it, by its
number, or as it is. -/
theorem escapedChar_cases (escapeSolidus : Bool) (c : Char) :
    (∃ f, escapedChar escapeSolidus c = ['\\', f] ∧ f ≠ 'u' ∧ simpleEscape? f = some c ∧ Text.IsPlain f) ∨
      escapedChar escapeSolidus c = unicodeEscape c ∨
      escapedChar escapeSolidus c = [c] ∧ c ≠ '"' ∧ c ≠ '\\' ∧ c.toNat ≠ 0 ∧ Text.IsPlain c := by
  have hofNat {n : Nat} (h : (c.toNat == n) = true) : Char.ofNat n = c := by
    rw [← beq_iff_eq.1 h, Char.ofNat_toNat]
  unfold escapedChar
  split
  · rename_i h
    rcases Bool.or_eq_true_iff.1 h with h | h <;> cases beq_iff_eq.1 h <;>
      exact .inl ⟨_, rfl, by decide, rfl, by decide⟩
  rename_i hmark
  split
  · rename_i h
    cases beq_iff_eq.1 (Bool.and_eq_true_iff.1 h).1
    exact .inl ⟨_, rfl, by decide, rfl, by decide⟩
  split
  · rename_i h
    cases beq_iff_eq.1 h
    exact .inl ⟨_, rfl, by decide, rfl, by decide⟩
  split
  · rename_i h
    cases beq_iff_eq.1 h
    exact .inl ⟨_, rfl, by decide, rfl, by decide⟩
  rename_i hreturn
  split
  · rename_i h
    cases beq_iff_eq.1 h
    exact .inl ⟨_, rfl, by decide, rfl, by decide⟩
  split
  · rename_i h
    rw [← hofNat h]
    exact .inl ⟨_, rfl, by decide, rfl, by decide⟩
  split
  · rename_i h
    rw [← hofNat h]
    exact .inl ⟨_, rfl, by decide, rfl, by decide⟩
  split
  · exact .inr (.inl rfl)
  · rename_i hrange
    have hrange : 0x20 ≤ c.toNat ∧ c.toNat ≤ 0x7f := by simpa using hrange
    rw [Bool.or_eq_true_iff, beq_iff_eq, beq_iff_eq, not_or] at hmark
    exact .inr (.inr ⟨rfl, hmark.1, hmark.2, by omega, by omega, fun hc => hreturn (beq_iff_eq.2 hc)⟩)

/-- What is written of a character is read as that character. -/
theorem string?_escapedChar (escapeSolidus : Bool) (c : Char) (htail : string? tail = some (cs, rest)) :
    string? (escapedChar escapeSolidus c ++ tail) = some (c :: cs, rest) := by
  rcases escapedChar_cases escapeSolidus c with ⟨f, h, hu, hf, -⟩ | h | ⟨h, hquote, hbackslash, hnul, -⟩
  · rw [h]
    exact string?_simple hu hf htail
  · rw [h]
    exact string?_unicodeEscape htail
  · rw [h]
    exact string?_plain hquote hbackslash hnul htail

/-- **A string** is read back from what is written of it. -/
theorem string?_escaped (escapeSolidus : Bool) (cs rest : List Char) :
    string? (cs.flatMap (escapedChar escapeSolidus) ++ '"' :: rest) = some (cs, rest) := by
  induction cs with
  | nil => exact string?_quote rest
  | cons c cs ih =>
    rw [List.flatMap_cons, List.append_assoc]
    exact string?_escapedChar escapeSolidus c ih

theorem isPlain_hex {width : Nat} (h : c ∈ Text.hex width n) : Text.IsPlain c := by
  induction width generalizing n with
  | zero => cases h
  | succ width ih =>
    rw [Text.hex, List.mem_append, List.mem_singleton] at h
    rcases h with h | rfl
    · exact ih h
    · have hall : ∀ n < 16, Text.IsPlain (Text.hexDigit n) := by decide
      exact hall _ (Nat.mod_lt n (by decide))

theorem isPlain_unicodeEscape {e : Char} (h : e ∈ unicodeEscape c) : Text.IsPlain e := by
  have hunit {n : Nat} (h : e ∈ '\\' :: 'u' :: Text.hex 4 n) : Text.IsPlain e := by
    rcases List.mem_cons.1 h with rfl | h
    · decide
    rcases List.mem_cons.1 h with rfl | h
    · decide
    · exact isPlain_hex h
  unfold unicodeEscape at h
  dsimp only at h
  split at h
  · exact hunit h
  · exact (List.mem_append.1 h).elim hunit hunit

/-- What is written of a character is plain. -/
theorem isPlain_escapedChar {escapeSolidus : Bool} {e : Char} (he : e ∈ escapedChar escapeSolidus c) :
    Text.IsPlain e := by
  rcases escapedChar_cases escapeSolidus c with ⟨f, h, -, -, hplain⟩ | h | ⟨h, -, -, -, hplain⟩
  · rw [h] at he
    rcases List.mem_cons.1 he with rfl | he
    · decide
    · exact List.mem_singleton.1 he ▸ hplain
  · rw [h] at he
    exact isPlain_unicodeEscape he
  · rw [h] at he
    exact List.mem_singleton.1 he ▸ hplain

/-! ### Whole numbers -/

/-- A whole number does not go on in what follows it. -/
def EndsNumber (rest : List Char) : Prop :=
  ∀ c ∈ rest.head?, Text.isAsciiDigit c = false ∧ c ≠ '.' ∧ c ≠ 'e' ∧ c ≠ 'E'

variable {ds : List Char}

theorem takeDigits_append_of_endsNumber (hdigits : ∀ c ∈ ds, Text.isAsciiDigit c = true)
    (hrest : EndsNumber rest) : Text.takeDigits (ds ++ rest) = (ds, rest) :=
  Text.takeDigits_digits_append hdigits fun c hc => (hrest c hc).1

/-- Digits that are not too many pass the limit. -/
theorem limit_of_length_le (h : ds.length ≤ maxDigits) :
    (decide (wideInteger ≤ Text.digitsValue ds) && decide (maxDigits < ds.length)) = false := by
  rw [decide_eq_false (Nat.not_lt.2 h), Bool.and_false]

theorem number?_unsigned (hsign : ∀ more, cs ≠ '-' :: more) (hsplit : Text.takeDigits cs = (ds, rest))
    (hrest : EndsNumber rest) (hlength : ds.length ≤ maxDigits) :
    number? .standard cs = some (int (Text.digitsValue ds), rest) := by
  cases rest with
  | nil => simp [number?, Limits.standard, hsplit, limit_of_length_le hlength]
  | cons c more =>
    obtain ⟨-, hpoint, he, hE⟩ := hrest c rfl
    simp [number?, Limits.standard, hsplit, hpoint, he, hE, limit_of_length_le hlength]

theorem number?_negative (hsplit : Text.takeDigits cs = (ds, rest)) (hrest : EndsNumber rest)
    (hlength : ds.length ≤ maxDigits) :
    number? .standard ('-' :: cs) = some (int (-Text.digitsValue ds), rest) := by
  cases rest with
  | nil => simp [number?, Limits.standard, hsplit, limit_of_length_le hlength]
  | cons c more =>
    obtain ⟨-, hpoint, he, hE⟩ := hrest c rfl
    simp [number?, Limits.standard, hsplit, hpoint, he, hE, limit_of_length_le hlength]

/-! ### Tokens -/

/-- The characters of a token, followed by some others. -/
structure TokenAt (written : List Char) (t : Token) (rest : List Char) : Prop where
  read : ∃ c cs, written = c :: cs ∧ isSpace c = false ∧ token? .standard c (cs ++ rest) = some (t, rest)
  plain : ∀ c ∈ written, Text.IsPlain c

theorem tokenAt_mark {t : Token} (hc : isSpace c = false) (hplain : Text.IsPlain c)
    (ht : mark? c = some t) (rest : List Char) : TokenAt [c] t rest := by
  refine ⟨⟨c, [], rfl, hc, ?_⟩, fun e he => List.mem_singleton.1 he ▸ hplain⟩
  unfold token?
  rw [ht]
  rfl

/-- The characters of a word, looked at one by one. -/
theorem isPlain_of_all (h : cs.all (fun c => decide (Text.IsPlain c)) = true) :
    ∀ c ∈ cs, Text.IsPlain c :=
  fun c hc => of_decide_eq_true (List.all_eq_true.1 h c hc)

theorem tokenAt_null (rest : List Char) : TokenAt "null".toList (.scalar null) rest :=
  ⟨⟨'n', ['u', 'l', 'l'], rfl, rfl, rfl⟩, isPlain_of_all rfl⟩

theorem tokenAt_bool (b : Bool) (rest : List Char) :
    TokenAt (if b then "true" else "false").toList (.scalar (bool b)) rest := by
  cases b with
  | false => exact ⟨⟨'f', ['a', 'l', 's', 'e'], rfl, rfl, rfl⟩, isPlain_of_all rfl⟩
  | true => exact ⟨⟨'t', ['r', 'u', 'e'], rfl, rfl, rfl⟩, isPlain_of_all rfl⟩

theorem tokenAt_string (escapeSolidus : Bool) (s : String) (rest : List Char) :
    TokenAt (string escapeSolidus s).toList (.scalar (text s)) rest := by
  constructor
  · refine ⟨'"', s.toList.flatMap (escapedChar escapeSolidus) ++ ['"'], ?_, rfl, ?_⟩
    · rw [string, String.toList_ofList]
      rfl
    · rw [List.append_assoc]
      show (string? (_ ++ '"' :: rest)).map _ = _
      rw [string?_escaped, Option.map_some, String.ofList_toList]
  · intro e he
    rw [string, String.toList_ofList] at he
    rcases List.mem_append.1 he with he | he
    · rcases List.mem_cons.1 he with rfl | he
      · decide
      · obtain ⟨c, -, he⟩ := List.mem_flatMap.1 he
        exact isPlain_escapedChar he
    · cases List.mem_singleton.1 he
      decide

/-- A character that begins a number begins no other token. -/
theorem token?_of_number {r : Json × List Char} (hmark : mark? c = none) (hquote : c ≠ '"')
    (hword : word? (c :: cs) = none) (hnumber : Text.isAsciiDigit c = true ∨ c = '-')
    (hr : number? limits (c :: cs) = some r) : token? limits c cs = some (.scalar r.1, r.2) := by
  have hbegins : (Text.isAsciiDigit c || c == '-') = true := by
    rw [Bool.or_eq_true_iff, beq_iff_eq]
    exact hnumber
  unfold token?
  rw [hmark, hword]
  simp [hquote, hbegins, hr]

/-- A digit begins nothing but a number. -/
theorem begins_of_isAsciiDigit (hc : Text.isAsciiDigit c = true) :
    mark? c = none ∧ c ≠ '"' ∧ c ≠ '-' ∧ isSpace c = false ∧ Text.IsPlain c := by
  have hrange : 48 ≤ c.toNat ∧ c.toNat ≤ 57 := by
    rw [Text.isAsciiDigit, Bool.and_eq_true_iff, decide_eq_true_iff, decide_eq_true_iff] at hc
    exact hc
  have hall : ∀ i < 10, (mark? (Char.ofNat (48 + i))).isNone = true ∧ Char.ofNat (48 + i) ≠ '"' ∧
      Char.ofNat (48 + i) ≠ '-' ∧ isSpace (Char.ofNat (48 + i)) = false ∧
      Text.IsPlain (Char.ofNat (48 + i)) := by decide
  have hself : Char.ofNat (48 + (c.toNat - 48)) = c := by
    rw [Nat.add_sub_cancel' hrange.1, Char.ofNat_toNat]
  have h := hall (c.toNat - 48) (by omega)
  rw [hself, Option.isNone_iff_eq_none] at h
  exact h

/-- No word begins with a digit, with or without a sign before it. -/
theorem word?_of_isAsciiDigit (hc : Text.isAsciiDigit c = true) (cs : List Char) :
    word? (c :: cs) = none ∧ word? ('-' :: c :: cs) = none := by
  have hother {e : Char} (he : Text.isAsciiDigit e = false) : e ≠ c := by
    rintro rfl
    rw [hc] at he
    cases he
  constructor <;>
    simp [word?, words, dropWord?, @hother 't' rfl, @hother 'f' rfl, @hother 'n' rfl, @hother 'N' rfl,
      @hother 'I' rfl, @hother '-' rfl]

/-- What is written of a number that is not too long. -/
theorem exists_toDigits {m : Nat} (hm : m < 10 ^ maxDigits) :
    ∃ c ds, Nat.toDigits 10 m = c :: ds ∧ (∀ e ∈ c :: ds, Text.isAsciiDigit e = true) ∧
      (c :: ds).length ≤ maxDigits ∧ Text.digitsValue (c :: ds) = m := by
  obtain ⟨c, ds, hds⟩ := List.exists_cons_of_ne_nil (@Nat.toDigits_ne_nil m 10)
  refine ⟨c, ds, hds, ?_, ?_, ?_⟩
  · rw [← hds]
    exact fun e he => Text.isAsciiDigit_of_mem_toDigits he
  · rw [← hds]
    exact (Nat.length_toDigits_le_iff (by decide) (by decide)).2 hm
  · rw [← hds]
    exact Text.digitsValue_toDigits m

/-- A whole number that is not too long, in front of what it does not go on in. -/
theorem tokenAt_int (hk : k.natAbs < 10 ^ maxDigits) (hrest : EndsNumber rest) :
    TokenAt (toString k).toList (.scalar (int k)) rest := by
  cases k with
  | ofNat m =>
    obtain ⟨c, ds, hwritten, hdigits, hlength, hvalue⟩ := exists_toDigits hk
    have htoString : (toString (Int.ofNat m)).toList = c :: ds := Nat.toList_repr.trans hwritten
    have hc := hdigits c List.mem_cons_self
    obtain ⟨hmark, hquote, hsign, hspace, -⟩ := begins_of_isAsciiDigit hc
    have hnumber := number?_unsigned (fun _ h => hsign (List.cons.inj h).1)
      (takeDigits_append_of_endsNumber hdigits hrest) hrest hlength
    rw [hvalue] at hnumber
    refine ⟨⟨c, ds, htoString, hspace, ?_⟩, fun e he => ?_⟩
    · exact token?_of_number hmark hquote (word?_of_isAsciiDigit hc _).1 (.inl hc) hnumber
    · rw [htoString] at he
      exact (begins_of_isAsciiDigit (hdigits e he)).2.2.2.2
  | negSucc m =>
    obtain ⟨c, ds, hwritten, hdigits, hlength, hvalue⟩ := exists_toDigits hk
    have htoString : (toString (Int.negSucc m)).toList = '-' :: c :: ds := by
      show ("-" ++ Nat.repr (m + 1)).toList = _
      rw [String.toList_append, Nat.toList_repr]
      exact congrArg _ hwritten
    have hc := hdigits c List.mem_cons_self
    have hnumber := number?_negative (takeDigits_append_of_endsNumber hdigits hrest) hrest hlength
    rw [hvalue] at hnumber
    refine ⟨⟨'-', c :: ds, htoString, rfl, ?_⟩, fun e he => ?_⟩
    · exact token?_of_number rfl (by decide) (word?_of_isAsciiDigit hc _).2 (.inr rfl) hnumber
    · rw [htoString] at he
      rcases List.mem_cons.1 he with rfl | he
      · decide
      · exact (begins_of_isAsciiDigit (hdigits e he)).2.2.2.2

end Json

end UsageLedger
