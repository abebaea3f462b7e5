/-
UsageLedger/Proofs/Text/Utf8.lean

Reading UTF-8 gives back what was written.  Every character is read off the front of its
own bytes, whatever follows them (`nextChar_utf8EncodeChar`), so every text is read off
its bytes (`utf8?_utf8Bytes`).

A file is read block by block.  More bytes after a sequence that is complete, or broken,
do not change how it is read (`nextChar_append`), and a sequence that lacks its end is kept
for the next block.  So reading in blocks comes to the same as reading at once
(`readBlocks_eq`), and a file with a text in it shows this text (`readBlocks_utf8Bytes`).
-/
import UsageLedger.Text.Utf8

/-- The bytes of an array, from one place on, put after some others. -/
theorem ByteArray.toList_loop (bytes : ByteArray) (i : Nat) (before : List UInt8) :
    ByteArray.toList.loop bytes i before = before.reverse ++ bytes.data.toList.drop i := by
  fun_induction ByteArray.toList.loop bytes i before with
  | case1 i before h ih =>
    have hi : i < bytes.data.toList.length := by simpa using h
    rw [ih, List.drop_eq_getElem_cons hi]
    simp [ByteArray.get!, h]
  | case2 i before h =>
    rw [List.drop_eq_nil_of_le (by simpa using Nat.le_of_not_lt h), List.append_nil]

namespace UsageLedger.Text

/-! ### One character -/

/-- The byte of an ASCII character. -/
def asciiByte (c : Char) : UInt8 := UInt8.ofNat c.toNat

theorem nextChar_ascii {c : Char} (h : c.toNat < 128) (rest : List UInt8) :
    nextChar (asciiByte c :: rest) = .char c rest := by
  have htoNat : (asciiByte c).toNat = c.toNat := by
    rw [asciiByte, UInt8.toNat_ofNat']
    omega
  have hlead : continuationCount (asciiByte c) = some 0 := by
    unfold continuationCount
    rw [if_pos]
    rw [UInt8.lt_iff_toNat_lt, htoNat]
    exact h
  unfold nextChar
  dsimp only
  rw [hlead]
  dsimp only
  rw [htoNat, Char.ofNat_toNat]

/-- The byte that continues a sequence by the last six bits of a number. -/
def continuation (n : Nat) : UInt8 := UInt8.ofNat (n % 64 + 128)

theorem toNat_continuation (n : Nat) : (continuation n).toNat = n % 64 + 128 := by
  rw [continuation, UInt8.toNat_ofNat']
  omega

theorem payload_continuation (n : Nat) : payload (continuation n) = n % 64 := by
  rw [payload, toNat_continuation]
  omega

theorem isContinuation_continuation (n : Nat) : isContinuation (continuation n) = true := by
  simp only [isContinuation, Bool.and_eq_true, decide_eq_true_eq, UInt8.le_iff_toNat_le,
    toNat_continuation]
  show 128 ≤ _ ∧ _ ≤ 191
  omega

theorem continueChar_continuation (count value n : Nat) (rest : List UInt8) :
    continueChar (count + 1) value (continuation n :: rest) =
      continueChar count (value * 64 + n % 64) rest := by
  rw [continueChar, if_pos (isContinuation_continuation n), payload_continuation]

theorem continuationCount_ofNat {n count : Nat}
    (h : 194 ≤ n ∧ n ≤ 223 ∧ count = 1 ∨ 224 ≤ n ∧ n ≤ 239 ∧ count = 2 ∨
      240 ≤ n ∧ n ≤ 244 ∧ count = 3) :
    continuationCount (UInt8.ofNat n) = some count := by
  have hn : (UInt8.ofNat n).toNat = n := by
    rw [UInt8.toNat_ofNat']
    omega
  have h80 : (0x80 : UInt8).toNat = 128 := rfl
  have hc2 : (0xc2 : UInt8).toNat = 194 := rfl
  have hdf : (0xdf : UInt8).toNat = 223 := rfl
  have he0 : (0xe0 : UInt8).toNat = 224 := rfl
  have hef : (0xef : UInt8).toNat = 239 := rfl
  have hf0 : (0xf0 : UInt8).toNat = 240 := rfl
  have hf4 : (0xf4 : UInt8).toNat = 244 := rfl
  simp only [continuationCount, Bool.and_eq_true, decide_eq_true_eq, UInt8.lt_iff_toNat_lt,
    UInt8.le_iff_toNat_le, hn, h80, hc2, hdf, he0, hef, hf0, hf4]
  rcases h with ⟨h₁, h₂, rfl⟩ | ⟨h₁, h₂, rfl⟩ | ⟨h₁, h₂, rfl⟩
  · rw [if_neg (by omega), if_pos ⟨h₁, h₂⟩]
  · rw [if_neg (by omega), if_neg (by omega), if_pos ⟨h₁, h₂⟩]
  · rw [if_neg (by omega), if_neg (by omega), if_neg (by omega), if_pos ⟨h₁, h₂⟩]

/-- A continuation may follow a leading byte unless the two would spell a character that has fewer
bytes, a surrogate, or nothing at all. -/
theorem secondRange_continuation {lead n : Nat} (hlead : lead < 256)
    (he0 : lead = 224 → 32 ≤ n % 64) (hed : lead = 237 → n % 64 < 32)
    (hf0 : lead = 240 → 16 ≤ n % 64) (hf4 : lead = 244 → n % 64 < 16) :
    (secondRange (UInt8.ofNat lead)).1 ≤ continuation n ∧
      continuation n ≤ (secondRange (UInt8.ofNat lead)).2 := by
  have heq (m : Nat) (hm : m < 256) : (UInt8.ofNat lead == UInt8.ofNat m) = true ↔ lead = m := by
    rw [beq_iff_eq, ← UInt8.toNat_inj, UInt8.toNat_ofNat', UInt8.toNat_ofNat']
    omega
  simp only [UInt8.le_iff_toNat_le, toNat_continuation]
  unfold secondRange
  split
  · rename_i h
    have hn := he0 ((heq 224 (by decide)).1 h)
    show 160 ≤ _ ∧ _ ≤ 191
    omega
  · split
    · rename_i h
      have hn := hed ((heq 237 (by decide)).1 h)
      show 128 ≤ _ ∧ _ ≤ 159
      omega
    · split
      · rename_i h
        have hn := hf0 ((heq 240 (by decide)).1 h)
        show 144 ≤ _ ∧ _ ≤ 191
        omega
      · split
        · rename_i h
          have hn := hf4 ((heq 244 (by decide)).1 h)
          show 128 ≤ _ ∧ _ ≤ 143
          omega
        · show 128 ≤ _ ∧ _ ≤ 191
          omega

/-- A leading byte and the first continuation after it. -/
theorem nextChar_lead {lead count n : Nat} {rest : List UInt8}
    (hcount : continuationCount (UInt8.ofNat lead) = some (count + 1)) (hlead : lead < 256)
    (he0 : lead = 224 → 32 ≤ n % 64) (hed : lead = 237 → n % 64 < 32)
    (hf0 : lead = 240 → 16 ≤ n % 64) (hf4 : lead = 244 → n % 64 < 16) :
    nextChar (UInt8.ofNat lead :: continuation n :: rest) =
      continueChar count (lead % 2 ^ (5 - count) * 64 + n % 64) rest := by
  obtain ⟨hlow, hhigh⟩ := secondRange_continuation hlead he0 hed hf0 hf4
  have hrange : (decide ((secondRange (UInt8.ofNat lead)).1 ≤ continuation n) &&
      decide (continuation n ≤ (secondRange (UInt8.ofNat lead)).2)) = true := by
    rw [decide_eq_true hlow, decide_eq_true hhigh, Bool.and_true]
  have hnat : (UInt8.ofNat lead).toNat = lead := by
    rw [UInt8.toNat_ofNat']
    omega
  unfold nextChar
  dsimp only
  rw [hcount]
  dsimp only
  rw [if_pos hrange, hnat, payload_continuation]

/-- **A character is read off its bytes**, whatever follows them. -/
theorem nextChar_utf8EncodeChar (c : Char) (rest : List UInt8) :
    nextChar (String.utf8EncodeChar c ++ rest) = .char c rest := by
  obtain ⟨v, hv⟩ : ∃ v, v = c.val.toNat := ⟨_, rfl⟩
  have hc : Char.ofNat v = c := by rw [hv]; exact Char.ofNat_toNat c
  -- A character is no surrogate and within the code space.
  have hvalid : v < 0xd800 ∨ 0xdfff < v ∧ v < 0x110000 := by rw [hv]; exact c.valid
  unfold String.utf8EncodeChar
  dsimp only
  rw [← hv]
  split
  · -- One byte.
    rename_i h
    have hascii : c.toNat < 128 := by
      show c.val.toNat < 128
      omega
    have hbyte : UInt8.ofNat v = asciiByte c := by rw [hv]; rfl
    rw [hbyte]
    exact nextChar_ascii hascii rest
  · split
    · rename_i h₁ h₂
      have hlead : UInt8.ofNat (v / 64 % 32 + 192) :: UInt8.ofNat (v % 64 + 128) :: rest =
          UInt8.ofNat (v / 64 + 192) :: continuation v :: rest := by
        rw [continuation, Nat.mod_eq_of_lt (by omega : v / 64 < 32)]
      show nextChar (_ :: _ :: rest) = _
      rw [hlead, nextChar_lead (continuationCount_ofNat (.inl ⟨by omega, by omega, rfl⟩)) (by omega)
        (by omega) (by omega) (by omega) (by omega), continueChar]
      have hvalue : (v / 64 + 192) % 2 ^ (5 - 0) * 64 + v % 64 = v := by omega
      rw [hvalue, hc]
    · split
      · rename_i h₁ h₂ h₃
        show nextChar (_ :: _ :: _ :: rest) = _
        have hlead : UInt8.ofNat (v / 4096 % 16 + 224) = UInt8.ofNat (v / 4096 + 224) := by
          rw [Nat.mod_eq_of_lt (by omega : v / 4096 < 16)]
        rw [hlead]
        show nextChar (_ :: continuation (v / 64) :: continuation v :: rest) = _
        rw [nextChar_lead (continuationCount_ofNat (.inr (.inl ⟨by omega, by omega, rfl⟩))) (by omega)
          (by omega) (by omega) (by omega) (by omega), continueChar_continuation, continueChar]
        have hvalue : ((v / 4096 + 224) % 2 ^ (5 - 1) * 64 + v / 64 % 64) * 64 + v % 64 = v := by omega
        rw [hvalue, hc]
      · rename_i h₁ h₂ h₃
        show nextChar (_ :: _ :: _ :: _ :: rest) = _
        have hlead : UInt8.ofNat (v / 262144 % 8 + 240) = UInt8.ofNat (v / 262144 + 240) := by
          rw [Nat.mod_eq_of_lt (by omega : v / 262144 < 8)]
        rw [hlead]
        show nextChar (_ :: continuation (v / 4096) :: continuation (v / 64) :: continuation v :: rest) = _
        rw [nextChar_lead (continuationCount_ofNat (.inr (.inr ⟨by omega, by omega, rfl⟩))) (by omega)
          (by omega) (by omega) (by omega) (by omega), continueChar_continuation,
          continueChar_continuation, continueChar]
        have hvalue : (((v / 262144 + 240) % 2 ^ (5 - 2) * 64 + v / 4096 % 64) * 64 + v / 64 % 64) * 64 +
            v % 64 = v := by omega
        rw [hvalue, hc]

/-! ### More bytes -/

/-- What a front is when more bytes follow: a sequence that is complete or broken stays so. -/
def Utf8Front.followedBy (more : List UInt8) : Utf8Front → Utf8Front
  | .char c rest => .char c (rest ++ more)
  | .illFormed rest => .illFormed (rest ++ more)
  | front => front

theorem continueChar_append {count value : Nat} {bytes : List UInt8}
    (h : continueChar count value bytes ≠ .unfinished) (more : List UInt8) :
    continueChar count value (bytes ++ more) = (continueChar count value bytes).followedBy more := by
  induction count generalizing value bytes with
  | zero => rw [continueChar, continueChar, Utf8Front.followedBy]
  | succ count ih =>
    cases bytes with
    | nil => exact absurd rfl h
    | cons b rest =>
      rw [List.cons_append, continueChar, continueChar]
      rw [continueChar] at h
      split
      · rename_i hb
        rw [if_pos hb] at h
        exact ih h
      · rfl

theorem nextChar_append {bytes : List UInt8} (hne : bytes ≠ [])
    (h : nextChar bytes ≠ .unfinished) (more : List UInt8) :
    nextChar (bytes ++ more) = (nextChar bytes).followedBy more := by
  obtain ⟨lead, rest, rfl⟩ := List.exists_cons_of_ne_nil hne
  rw [List.cons_append]
  unfold nextChar at h ⊢
  dsimp only at h ⊢
  cases hcount : continuationCount lead with
  | none => rfl
  | some count =>
    rw [hcount] at h
    cases count with
    | zero => rfl
    | succ count =>
      cases rest with
      | nil => exact absurd rfl h
      | cons b rest =>
        dsimp only [List.cons_append] at h ⊢
        split
        · rename_i hb
          rw [if_pos hb] at h
          exact continueChar_append h more
        · rfl

theorem length_le_of_continueChar {count value : Nat} {bytes rest : List UInt8} {c : Char}
    (h : continueChar count value bytes = .char c rest) : rest.length ≤ bytes.length := by
  induction count generalizing value bytes with
  | zero =>
    cases h
    exact Nat.le_refl _
  | succ count ih =>
    cases bytes with
    | nil => cases h
    | cons b bytes =>
      rw [continueChar] at h
      split at h
      · exact Nat.le_succ_of_le (ih h)
      · cases h

theorem continueChar_ne_done (count value : Nat) (bytes : List UInt8) :
    continueChar count value bytes ≠ .done := by
  induction count generalizing value bytes with
  | zero => nofun
  | succ count ih =>
    cases bytes with
    | nil => nofun
    | cons b rest =>
      rw [continueChar]
      split
      · exact ih _ rest
      · nofun

theorem eq_nil_of_nextChar {bytes : List UInt8} (h : nextChar bytes = .done) : bytes = [] := by
  cases bytes with
  | nil => rfl
  | cons lead bytes =>
    unfold nextChar at h
    dsimp only at h
    split at h
    · cases h
    · cases h
    · split at h
      · cases h
      · split at h
        · exact absurd h (continueChar_ne_done _ _ _)
        · cases h

/-- A character takes a byte at least. -/
theorem length_lt_of_nextChar {bytes rest : List UInt8} {c : Char}
    (h : nextChar bytes = .char c rest) : rest.length < bytes.length := by
  cases bytes with
  | nil => cases h
  | cons lead bytes =>
    unfold nextChar at h
    dsimp only at h
    split at h
    · cases h
    · cases h
      exact Nat.lt_succ_self _
    · split at h
      · cases h
      · split at h
        · have hle := length_le_of_continueChar h
          simp only [List.length_cons]
          omega
        · cases h

/-! ### Whole texts -/

/-- More steps than bytes change nothing. -/
theorem readChars_eq {steps steps' : Nat} {bytes : List UInt8} (h : bytes.length < steps)
    (h' : bytes.length < steps') : readChars steps bytes = readChars steps' bytes := by
  induction steps generalizing steps' bytes with
  | zero => exact absurd h (Nat.not_lt_zero _)
  | succ steps ih =>
    obtain ⟨steps', rfl⟩ : ∃ n, steps' = n + 1 := ⟨steps' - 1, by omega⟩
    rw [readChars, readChars]
    cases hfront : nextChar bytes with
    | char c rest =>
      have hlt := length_lt_of_nextChar hfront
      dsimp only
      rw [ih (by omega) (by omega : rest.length < steps')]
    | _ => rfl

/-- What reading some bytes to their end gives. -/
def reading (bytes : List UInt8) : Utf8Reading := readChars (bytes.length + 1) bytes

/-- A character read, and then the rest. -/
def Utf8Reading.after (c : Char) (r : Utf8Reading) : Utf8Reading := { r with chars := c :: r.chars }

theorem reading_of_char {bytes rest : List UInt8} {c : Char} (h : nextChar bytes = .char c rest) :
    reading bytes = (reading rest).after c := by
  have hlt := length_lt_of_nextChar h
  rw [reading, readChars, h]
  dsimp only
  rw [readChars_eq hlt (Nat.lt_succ_self _)]
  rfl

theorem reading_of_unfinished {bytes : List UInt8} (h : nextChar bytes = .unfinished) :
    reading bytes = ⟨[], bytes, false⟩ := by rw [reading, readChars, h]

theorem reading_of_illFormed {bytes rest : List UInt8} (h : nextChar bytes = .illFormed rest) :
    reading bytes = ⟨[], [], true⟩ := by rw [reading, readChars, h]

/-- A reading of a part carried on to the bytes after it: what it left unread is read together with
them, unless it broke off. -/
def Utf8Reading.readOn (r : Utf8Reading) (more : List UInt8) : Utf8Reading :=
  if r.illFormed then r
  else { reading (r.pending ++ more) with chars := r.chars ++ (reading (r.pending ++ more)).chars }

theorem Utf8Reading.readOn_after (c : Char) (r : Utf8Reading) (more : List UInt8) :
    (r.after c).readOn more = (r.readOn more).after c := by
  unfold readOn
  rw [after]
  dsimp only
  split <;> rfl

/-- **Reading in two parts** comes to the same as reading at once. -/
theorem reading_append (part more : List UInt8) :
    reading (part ++ more) = (reading part).readOn more := by
  -- Induction on the length of the part, for a character takes some bytes off.
  induction hlength : part.length using Nat.strongRecOn generalizing part with
  | _ length ih =>
    by_cases hne : part = []
    · subst hne
      rfl
    · cases hfront : nextChar part with
      | done => exact absurd (eq_nil_of_nextChar hfront) hne
      | unfinished =>
        rw [reading_of_unfinished hfront]
        rfl
      | illFormed rest =>
        have hwhole := nextChar_append hne (by simp [hfront]) more
        rw [hfront] at hwhole
        rw [reading_of_illFormed hfront, reading_of_illFormed hwhole]
        rfl
      | char c rest =>
        have hwhole := nextChar_append hne (by simp [hfront]) more
        have hlt := length_lt_of_nextChar hfront
        rw [hfront] at hwhole
        rw [reading_of_char hfront, reading_of_char hwhole, ih rest.length (by omega) rest rfl,
          Utf8Reading.readOn_after]

/-- **A text is read off its bytes.** -/
theorem reading_flatMap (cs : List Char) :
    reading (cs.flatMap String.utf8EncodeChar) = ⟨cs, [], false⟩ := by
  induction cs with
  | nil => rfl
  | cons c rest ih =>
    rw [List.flatMap_cons, reading_of_char (nextChar_utf8EncodeChar c _), ih]
    rfl

theorem utf8Bytes_ofList (cs : List Char) :
    utf8Bytes (String.ofList cs) = cs.flatMap String.utf8EncodeChar := by
  unfold utf8Bytes ByteArray.toList
  rw [ByteArray.toList_loop, String.toUTF8_eq_toByteArray, String.toByteArray_ofList]
  simp [List.utf8Encode]

theorem reading_utf8Bytes (s : String) : reading (utf8Bytes s) = ⟨s.toList, [], false⟩ := by
  have hbytes := utf8Bytes_ofList s.toList
  rw [String.ofList_toList] at hbytes
  rw [hbytes]
  exact reading_flatMap s.toList

/-- **A text** is read back from the file that it is written to. -/
theorem utf8?_utf8Bytes (s : String) : utf8? (utf8Bytes s) = some s.toList := by
  have hread : readChars ((utf8Bytes s).length + 1) (utf8Bytes s) = ⟨s.toList, [], false⟩ :=
    reading_utf8Bytes s
  unfold utf8?
  rw [hread]
  rfl

/-! ### Reading in blocks -/

theorem flatten_blocks {size : Nat} (hsize : 0 < size) (bytes : List UInt8) :
    (blocks size bytes).flatten = bytes := by
  have hgo (steps : Nat) (bytes : List UInt8) (h : bytes.length < steps) :
      (blocks.go size steps bytes).flatten = bytes := by
    induction steps generalizing bytes with
    | zero => exact absurd h (Nat.not_lt_zero _)
    | succ steps ih =>
      cases bytes with
      | nil => rfl
      | cons b rest =>
        have hdrop : ((b :: rest).drop size).length < steps := by
          rw [List.length_drop]
          simp only [List.length_cons] at h ⊢
          omega
        rw [blocks.go, List.flatten_cons, ih _ hdrop, List.take_append_drop]
        exact List.cons_ne_nil b rest
  exact hgo _ bytes (Nat.lt_succ_self _)

/-- A reading that goes through to the end went through its first part. -/
theorem Utf8Reading.of_readOn {r : Utf8Reading} {more : List UInt8} {cs : List Char}
    (h : r.readOn more = ⟨cs, [], false⟩) :
    r.illFormed = false ∧
      ∃ cs', reading (r.pending ++ more) = ⟨cs', [], false⟩ ∧ cs = r.chars ++ cs' := by
  unfold readOn at h
  split at h
  · rename_i hill
    rw [h] at hill
    cases hill
  · rename_i hill
    cases hr : reading (r.pending ++ more) with
    | mk chars pending illFormed =>
      rw [hr] at h
      cases h
      exact ⟨by simpa using hill, chars, rfl, rfl⟩

/-- **Blocks of well-formed bytes** are read as one, for a sequence cut by the end of a block is read
together with the next one. -/
theorem readBlocks_eq {pending : List UInt8} {blocks : List (List UInt8)} {cs : List Char}
    (h : reading (pending ++ blocks.flatten) = ⟨cs, [], false⟩) (hlast : blocks = [] → pending = []) :
    readBlocks pending blocks = (cs, false) := by
  induction blocks generalizing pending cs with
  | nil =>
    obtain rfl := hlast rfl
    cases h
    rfl
  | cons block rest ih =>
    rw [List.flatten_cons, ← List.append_assoc] at h
    have hon := h
    rw [reading_append] at hon
    obtain ⟨hill, cs', hread, rfl⟩ := Utf8Reading.of_readOn hon
    have hend : rest = [] → (reading (pending ++ block)).pending = [] := by
      rintro rfl
      rw [List.flatten_nil, List.append_nil] at h
      rw [h]
    have hrest := ih hread hend
    have hfirst : readChars ((pending ++ block).length + 1) (pending ++ block) =
        reading (pending ++ block) := rfl
    rw [readBlocks, hfirst, hill, if_neg (by decide), hrest]

/-- **A file with a text in it** shows this text, read in blocks of any size. -/
theorem readBlocks_utf8Bytes {size : Nat} (hsize : 0 < size) (s : String) :
    readBlocks [] (blocks size (utf8Bytes s)) = (s.toList, false) := by
  refine readBlocks_eq ?_ fun _ => rfl
  rw [List.nil_append, flatten_blocks hsize]
  exact reading_utf8Bytes s

end UsageLedger.Text
