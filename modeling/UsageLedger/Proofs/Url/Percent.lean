/-
UsageLedger/Proofs/Url/Percent.lean

Percent codes read back.  Who writes an address may leave some characters as they are and
may write any byte as a code, with digits of either case; `Encodes` says which texts come
of that for given bytes.  Decoding gives back the text whose bytes they are, whatever way of
writing was taken (`decodeQuery_of_encodes`).

What is encoded holds no mark that takes addresses apart (`Encodes.isPlain_or`), so it can
stand in a path, in the name or in the value of a parameter.
-/
import UsageLedger.Proofs.Text.Utf8
import UsageLedger.Url.Percent

namespace UsageLedger

namespace Text

/-! ### Lenient reading -/

/-- **A text is read off its bytes**, and nothing is put in its place. -/
theorem utf8Lossy_go {steps : Nat} {cs : List Char}
    (h : (cs.flatMap String.utf8EncodeChar).length < steps) :
    utf8Lossy.go steps (cs.flatMap String.utf8EncodeChar) = cs := by
  induction cs generalizing steps with
  | nil =>
    obtain ⟨steps, rfl⟩ : ∃ n, steps = n + 1 := ⟨steps - 1, by omega⟩
    rfl
  | cons c rest ih =>
    obtain ⟨steps, rfl⟩ : ∃ n, steps = n + 1 := ⟨steps - 1, by omega⟩
    have hnext := nextChar_utf8EncodeChar c (rest.flatMap String.utf8EncodeChar)
    have hlt := length_lt_of_nextChar hnext
    rw [List.flatMap_cons] at h ⊢
    rw [utf8Lossy.go, hnext]
    dsimp only
    rw [ih (by omega)]

theorem utf8Lossy_utf8Bytes (s : String) : utf8Lossy (utf8Bytes s) = s.toList := by
  have hbytes := utf8Bytes_ofList s.toList
  rw [String.ofList_toList] at hbytes
  rw [hbytes]
  exact utf8Lossy_go (Nat.lt_succ_self _)

theorem utf8Bytes_eq_nil_iff {s : String} : utf8Bytes s = [] ↔ s = "" := by
  refine ⟨fun h => ?_, fun h => h ▸ utf8Bytes_ofList []⟩
  have hread := utf8Lossy_utf8Bytes s
  rw [h] at hread
  exact String.toList_eq_nil_iff.1 hread.symm

end Text

namespace Url

open Text

/-! ### Encodings -/

/-- The marks that mean something in an address or in its query. -/
def marks : List Char := ['+', '&', '=', '#', '?']

/-- A character that may be left as it is: one that can be seen and is neither a percent sign nor a
mark. -/
def isPlain (c : Char) : Bool :=
  0x20 < c.toNat && c.toNat < 0x7f && c != '%' && !marks.contains c

/-- Some bytes written with percent codes. -/
inductive Encodes : List UInt8 → List Char → Prop
  | nil : Encodes [] []
  | plain {c : Char} {bytes : List UInt8} {cs : List Char} :
      isPlain c = true → Encodes bytes cs → Encodes (c.toNat.toUInt8 :: bytes) (c :: cs)
  | code {a b : Char} {n : Nat} {bytes : List UInt8} {cs : List Char} :
      ofHex? [a, b] = some n → Encodes bytes cs → Encodes (n.toUInt8 :: bytes) ('%' :: a :: b :: cs)

variable {c a b : Char} {n : Nat} {bytes : List UInt8} {cs : List Char} {s : String}

theorem isPlain_iff : isPlain c = true ↔
    ((0x20 < c.toNat ∧ c.toNat < 0x7f) ∧ c ≠ '%') ∧ c ∉ marks := by
  simp only [isPlain, Bool.and_eq_true, decide_eq_true_eq, bne_iff_ne, Bool.not_eq_true',
    List.contains_eq_mem, decide_eq_false_iff_not]

theorem isPlain_of_hexValue? (h : hexValue? c = some n) : isPlain c = true := by
  have hrange : 48 ≤ c.toNat ∧ c.toNat ≤ 57 ∨ 97 ≤ c.toNat ∧ c.toNat ≤ 102 ∨
      65 ≤ c.toNat ∧ c.toNat ≤ 70 := by
    simp only [hexValue?, Bool.and_eq_true, decide_eq_true_eq] at h
    split at h
    · omega
    · split at h
      · omega
      · split at h
        · omega
        · cases h
  refine isPlain_iff.2 ⟨⟨by omega, ?_⟩, fun hmem => ?_⟩
  · rintro rfl
    simp at hrange
  · simp only [marks, List.mem_cons, List.not_mem_nil, or_false] at hmem
    rcases hmem with rfl | rfl | rfl | rfl | rfl <;> simp at hrange

theorem isPlain_of_ofHex? (h : ofHex? [a, b] = some n) : isPlain a = true ∧ isPlain b = true := by
  unfold ofHex? at h
  simp only [List.foldlM_cons, List.foldlM_nil, Option.bind_eq_bind, Option.bind_eq_some_iff,
    Option.map_eq_some_iff] at h
  obtain ⟨_, ⟨_, ha, -⟩, _, ⟨_, hb, -⟩, -⟩ := h
  exact ⟨isPlain_of_hexValue? ha, isPlain_of_hexValue? hb⟩

/-- What is encoded is made of plain characters and percent signs. -/
theorem Encodes.isPlain_or (h : Encodes bytes cs) (hc : c ∈ cs) : c = '%' ∨ isPlain c = true := by
  induction h with
  | nil => cases hc
  | plain hplain _ ih =>
    rcases List.mem_cons.1 hc with rfl | hc
    · exact .inr hplain
    · exact ih hc
  | code hhex _ ih =>
    obtain ⟨ha, hb⟩ := isPlain_of_ofHex? hhex
    simp only [List.mem_cons] at hc
    rcases hc with rfl | rfl | rfl | hc
    · exact .inl rfl
    · exact .inr ha
    · exact .inr hb
    · exact ih hc

/-- What is encoded can be seen. -/
theorem Encodes.visible (h : Encodes bytes cs) (hc : c ∈ cs) : 0x20 < c.toNat ∧ c.toNat < 0x7f := by
  rcases h.isPlain_or hc with rfl | hplain
  · decide
  · exact (isPlain_iff.1 hplain).1.1

/-- The marks of an address do not occur in what is encoded. -/
theorem Encodes.not_mem {mark : Char} (h : Encodes bytes cs) (hm : mark ∈ marks) : mark ∉ cs := by
  intro hc
  rcases h.isPlain_or hc with rfl | hplain
  · exact absurd hm (by decide)
  · exact (isPlain_iff.1 hplain).2 hm

theorem Encodes.eq_nil_iff (h : Encodes bytes cs) : cs = [] ↔ bytes = [] := by
  cases h <;> simp

/-! ### Decoding -/

theorem Encodes.decodeBytes_eq (h : Encodes bytes cs) : decodeBytes cs = bytes := by
  induction h with
  | nil => rfl
  | @plain c _ _ hplain _ ih =>
    have hc : c ≠ '%' := by
      rintro rfl
      exact absurd hplain (by decide)
    rw [decodeBytes, ih]
    rintro a b rest hpercent
    exact absurd hpercent hc
  | code hhex _ ih => rw [decodeBytes, hhex, ih]

/-- Characters of ASCII are one run. -/
theorem decodeRuns_of_isAscii (run : List Char) (h : ∀ c ∈ cs, isAscii c = true) :
    decodeRuns run cs = utf8Lossy (decodeBytes (run.reverse ++ cs)) := by
  induction cs generalizing run with
  | nil => rw [decodeRuns, List.append_nil]
  | cons c rest ih =>
    obtain ⟨hc, hrest⟩ := List.forall_mem_cons.1 h
    rw [decodeRuns, if_pos hc, ih _ hrest, List.reverse_cons, List.append_assoc, List.singleton_append]

/-- **An encoded text is read back**, however it is written. -/
theorem decodeQuery_of_encodes (h : Encodes (utf8Bytes s) cs) : decodeQuery cs = s.toList := by
  have hnone : '+' ∉ cs := h.not_mem (by decide)
  have hplus : (cs.map fun c => if c == '+' then ' ' else c) = cs := by
    refine (List.map_congr_left fun c hc => ?_).trans (List.map_id cs)
    have hc : c ≠ '+' := fun he => hnone (he ▸ hc)
    rw [if_neg (by simpa using hc)]
    rfl
  have hascii (c : Char) (hc : c ∈ cs) : isAscii c = true := by
    have hvisible := h.visible hc
    simp only [isAscii, decide_eq_true_eq]
    omega
  rw [decodeQuery, hplus, decodeChars, decodeRuns_of_isAscii [] hascii, List.reverse_nil,
    List.nil_append, h.decodeBytes_eq, utf8Lossy_utf8Bytes]

/-! ### Encoding -/

theorem hexValue?_upperHexDigit : ∀ n < 16, hexValue? (upperHexDigit n) = some n := by decide

theorem isPlain_of_isUnreserved : ∀ n < 128, isUnreserved n.toUInt8 = true →
    isPlain (Char.ofNat n) = true ∧ (Char.ofNat n).toNat = n := by decide +kernel

theorem encodes_encodeByte (b : UInt8) (h : Encodes bytes cs) :
    Encodes (b :: bytes) (encodeByte b ++ cs) := by
  have hbyte : b.toNat.toUInt8 = b := UInt8.ofNat_toNat
  have hlt : b.toNat < 256 := b.toNat_lt
  unfold encodeByte
  split
  · rename_i hb
    have hascii : b.toNat < 128 := by
      simp only [isUnreserved, Bool.and_eq_true, decide_eq_true_eq] at hb
      exact UInt8.lt_iff_toNat_lt.1 hb.1
    obtain ⟨hplain, hchar⟩ := isPlain_of_isUnreserved b.toNat hascii (hbyte.symm ▸ hb)
    have hwritten := Encodes.plain hplain h
    rwa [hchar, hbyte] at hwritten
  · have hhex : ofHex? [upperHexDigit (b.toNat / 16), upperHexDigit (b.toNat % 16)] = some b.toNat := by
      have hvalue : (0 * 16 + b.toNat / 16) * 16 + b.toNat % 16 = b.toNat := by omega
      have hhigh := hexValue?_upperHexDigit (b.toNat / 16) (by omega)
      have hlow := hexValue?_upperHexDigit (b.toNat % 16) (by omega)
      simp only [ofHex?, List.foldlM_cons, List.foldlM_nil, hhigh, hlow]
      exact congrArg some hvalue
    have hwritten := Encodes.code hhex h
    rwa [hbyte] at hwritten

/-- Encoding is one of the ways. -/
theorem encodes_encode (s : String) : Encodes (utf8Bytes s) (encode s).toList := by
  rw [encode, String.toList_ofList]
  induction utf8Bytes s with
  | nil => exact .nil
  | cons b bytes ih =>
    rw [List.flatMap_cons]
    exact encodes_encodeByte b ih

end Url

end UsageLedger
