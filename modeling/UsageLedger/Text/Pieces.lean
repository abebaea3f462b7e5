/-
UsageLedger/Text/Pieces.lean

Cutting text at each occurrence of a mark.  Joining the pieces with the mark
between them gives the text back.
-/
namespace UsageLedger.Text

/-- The pieces of a text between occurrences of a mark. -/
def pieces (mark : Char) : List Char → List (List Char)
  | [] => [[]]
  | c :: rest =>
    if c == mark then [] :: pieces mark rest
    else
      match pieces mark rest with
      | [] => [[c]]
      | piece :: more => (c :: piece) :: more

theorem pieces_ne_nil (mark : Char) (cs : List Char) : pieces mark cs ≠ [] := by
  cases cs with
  | nil => simp [pieces]
  | cons c rest =>
    simp only [pieces]
    split
    · simp
    · split <;> simp

theorem intercalate_pieces (mark : Char) (cs : List Char) :
    [mark].intercalate (pieces mark cs) = cs := by
  induction cs with
  | nil => simp [pieces]
  | cons c rest ih =>
    simp only [pieces]
    cases h : pieces mark rest with
    | nil => exact absurd h (pieces_ne_nil mark rest)
    | cons piece more =>
      rw [h] at ih
      by_cases hc : c = mark
      · simp [hc, ← ih, List.intercalate]
      · cases more <;> simp_all [List.intercalate, List.intersperse]

theorem not_mem_of_mem_pieces (mark : Char) {cs piece : List Char} (h : piece ∈ pieces mark cs) :
    mark ∉ piece := by
  induction cs generalizing piece with
  | nil => simp_all [pieces]
  | cons c rest ih =>
    simp only [pieces] at h
    split at h
    · rcases List.mem_cons.1 h with rfl | h
      · simp
      · exact ih h
    · rename_i hc
      have hc : mark ≠ c := fun he => hc (by simp [he])
      split at h
      · rcases List.mem_singleton.1 h with rfl
        simp [hc]
      · rename_i first more hp
        rcases List.mem_cons.1 h with rfl | h
        · have := ih (hp ▸ List.mem_cons_self)
          simp [hc, this]
        · exact ih (hp ▸ List.mem_cons_of_mem _ h)

theorem pieces_eq_singleton (mark : Char) {cs : List Char} (h : mark ∉ cs) :
    pieces mark cs = [cs] := by
  induction cs with
  | nil => rfl
  | cons c rest ih =>
    have hc : c ≠ mark := fun he => h (by simp [he])
    simp [pieces, hc, ih fun hm => h (List.mem_cons_of_mem c hm)]

theorem pieces_append_cons (mark : Char) {cs : List Char} (rest : List Char) (h : mark ∉ cs) :
    pieces mark (cs ++ mark :: rest) = cs :: pieces mark rest := by
  induction cs with
  | nil => simp [pieces]
  | cons c cs ih =>
    have hc : c ≠ mark := fun he => h (by simp [he])
    simp [pieces, hc, ih fun hm => h (List.mem_cons_of_mem c hm)]

/-- A character of what pieces are joined to is the mark or stands in a piece. -/
theorem mem_of_mem_intercalate {mark c : Char} {parts : List (List Char)}
    (hc : c ∈ [mark].intercalate parts) : c = mark ∨ ∃ piece ∈ parts, c ∈ piece := by
  induction parts with
  | nil => cases hc
  | cons piece parts ih =>
    cases parts with
    | nil =>
      rw [List.intercalate_singleton] at hc
      exact .inr ⟨piece, by simp, hc⟩
    | cons next parts =>
      rw [List.intercalate_cons_cons, List.mem_append, List.mem_append, List.mem_singleton] at hc
      rcases hc with (hc | rfl) | hc
      · exact .inr ⟨piece, by simp, hc⟩
      · exact .inl rfl
      · refine (ih hc).imp_right fun ⟨piece, hpiece, hc⟩ => ?_
        exact ⟨piece, List.mem_cons_of_mem _ hpiece, hc⟩

/-- Pieces in which the mark does not occur are found again in what they are joined to. -/
theorem pieces_intercalate (mark : Char) {parts : List (List Char)} (hne : parts ≠ [])
    (h : ∀ piece ∈ parts, mark ∉ piece) : pieces mark ([mark].intercalate parts) = parts := by
  induction parts with
  | nil => exact absurd rfl hne
  | cons piece parts ih =>
    obtain ⟨hpiece, hparts⟩ := List.forall_mem_cons.1 h
    cases parts with
    | nil => rw [List.intercalate_singleton, pieces_eq_singleton mark hpiece]
    | cons next parts =>
      rw [List.intercalate_cons_cons, List.append_assoc, List.singleton_append,
        pieces_append_cons mark _ hpiece, ih (List.cons_ne_nil _ _) hparts]

end UsageLedger.Text
