/-
UsageLedger/Proofs/Text/Lines.lean

The lines of a text.  A line ends with a line feed, a carriage return, or the two together,
and the last one may end with the text.  `IsLines` says so; every text has lines, and no
others (`isLines_iff`).

A file with a text in it is read line by line as these lines (`ofBytes_utf8Bytes`).
-/
import UsageLedger.Proofs.Text.Utf8
import UsageLedger.Text.Lines

namespace UsageLedger.Text

/-! ### Lines -/

/-- The marks that end a line. -/
def lineEnds : List (List Char) := [['\r', '\n'], ['\n'], ['\r']]

/-- A line holds no character of a mark. -/
def IsLine (cs : List Char) : Prop := '\n' ∉ cs ∧ '\r' ∉ cs

/-- Some lines make up a text: each one is ended by a mark, the longest one that stands there, or it
is the last one, is not empty, and ends with the text. -/
inductive IsLines : List Char → List (List Char) → Prop
  | nil : IsLines [] []
  | last {line : List Char} : IsLine line → line ≠ [] → IsLines line [line]
  | ended {line mark rest : List Char} {lines : List (List Char)} :
      IsLine line → mark ∈ lineEnds → (mark = ['\r'] → rest.head? ≠ some '\n') →
      IsLines rest lines → IsLines (line ++ mark ++ rest) (line :: lines)

/-- The lines of a text, without their ends. -/
def linesOf (cs : List Char) : List (List Char) :=
  let (lines, last) := splitLines (unifyLineEnds cs)
  if last.isEmpty then lines else lines ++ [last]

/-! ### What the reading does -/

theorem unifyLineEnds_append {line : List Char} (h : '\r' ∉ line) (rest : List Char) :
    unifyLineEnds (line ++ rest) = line ++ unifyLineEnds rest := by
  induction line with
  | nil => rfl
  | cons c line ih =>
    have hc : c ≠ '\r' := fun he => h (he ▸ List.mem_cons_self)
    have hline : '\r' ∉ line := fun hm => h (List.mem_cons_of_mem c hm)
    rw [List.cons_append, unifyLineEnds, ih hline, List.cons_append]
    · rintro _ rfl
      exact absurd rfl hc
    · exact hc

/-- Every mark becomes a line feed. -/
theorem unifyLineEnds_mark {mark rest : List Char} (hm : mark ∈ lineEnds)
    (hr : mark = ['\r'] → rest.head? ≠ some '\n') :
    unifyLineEnds (mark ++ rest) = '\n' :: unifyLineEnds rest := by
  simp only [lineEnds, List.mem_cons, List.not_mem_nil, or_false] at hm
  rcases hm with rfl | rfl | rfl
  · rfl
  · rfl
  · cases rest with
    | nil => rfl
    | cons c rest =>
      have hc : c ≠ '\n' := fun he => hr rfl (by rw [he]; rfl)
      show unifyLineEnds ('\r' :: c :: rest) = _
      rw [unifyLineEnds]
      intro more he
      exact hc (List.cons.inj he).1

theorem splitLines_line {line : List Char} (h : '\n' ∉ line) : splitLines line = ([], line) := by
  induction line with
  | nil => rfl
  | cons c line ih =>
    have hc : (c == '\n') = false := beq_false_of_ne fun he => h (he ▸ List.mem_cons_self)
    have hline : '\n' ∉ line := fun hm => h (List.mem_cons_of_mem c hm)
    rw [splitLines, ih hline]
    dsimp only
    rw [if_neg (by simp [hc])]

theorem splitLines_append {line : List Char} (h : '\n' ∉ line) (rest : List Char) :
    splitLines (line ++ '\n' :: rest) = (line :: (splitLines rest).1, (splitLines rest).2) := by
  induction line with
  | nil => rfl
  | cons c line ih =>
    have hc : (c == '\n') = false := beq_false_of_ne fun he => h (he ▸ List.mem_cons_self)
    have hline : '\n' ∉ line := fun hm => h (List.mem_cons_of_mem c hm)
    rw [List.cons_append, splitLines, ih hline]
    dsimp only
    rw [if_neg (by simp [hc])]

theorem linesOf_ended {line mark rest : List Char} (hline : IsLine line) (hm : mark ∈ lineEnds)
    (hr : mark = ['\r'] → rest.head? ≠ some '\n') :
    linesOf (line ++ mark ++ rest) = line :: linesOf rest := by
  unfold linesOf
  rw [List.append_assoc, unifyLineEnds_append hline.2, unifyLineEnds_mark hm hr,
    splitLines_append hline.1]
  dsimp only
  split <;> rfl

theorem linesOf_last {line : List Char} (hline : IsLine line) (hne : line ≠ []) :
    linesOf line = [line] := by
  have hunify := unifyLineEnds_append hline.2 []
  rw [List.append_nil] at hunify
  unfold linesOf
  rw [hunify]
  show (match splitLines (line ++ []) with
    | (lines, last) => if last.isEmpty then lines else lines ++ [last]) = _
  rw [List.append_nil, splitLines_line hline.1]
  dsimp only
  rw [if_neg (by simpa using hne), List.nil_append]

/-! ### The lines of a text -/

/-- The characters before the first mark, and the rest. -/
theorem exists_isLine (cs : List Char) :
    ∃ line rest, cs = line ++ rest ∧ IsLine line ∧
      (rest = [] ∨ ∃ mark more, rest = mark ++ more ∧ mark ∈ lineEnds ∧
        (mark = ['\r'] → more.head? ≠ some '\n')) := by
  induction cs with
  | nil => exact ⟨[], [], rfl, ⟨List.not_mem_nil, List.not_mem_nil⟩, .inl rfl⟩
  | cons c cs ih =>
    have hempty : IsLine [] := ⟨List.not_mem_nil, List.not_mem_nil⟩
    by_cases hn : c = '\n'
    · subst hn
      exact ⟨[], '\n' :: cs, rfl, hempty, .inr ⟨['\n'], cs, rfl, by decide, nofun⟩⟩
    · by_cases hr : c = '\r'
      · subst hr
        -- A line feed after a carriage return belongs to the mark.
        by_cases hhead : cs.head? = some '\n'
        · obtain ⟨more, rfl⟩ := List.head?_eq_some_iff.1 hhead
          exact ⟨[], _, rfl, hempty, .inr ⟨['\r', '\n'], more, rfl, by decide, nofun⟩⟩
        · exact ⟨[], _, rfl, hempty, .inr ⟨['\r'], cs, rfl, by decide, fun _ => hhead⟩⟩
      · obtain ⟨line, rest, rfl, ⟨hln, hlr⟩, hrest⟩ := ih
        refine ⟨c :: line, rest, rfl, ⟨fun hm => ?_, fun hm => ?_⟩, hrest⟩
        · exact (List.mem_cons.1 hm).elim (fun he => hn he.symm) hln
        · exact (List.mem_cons.1 hm).elim (fun he => hr he.symm) hlr

theorem isLines_linesOf (cs : List Char) : IsLines cs (linesOf cs) := by
  -- Induction on the length, for a line and its end are taken off together.
  induction hlength : cs.length using Nat.strongRecOn generalizing cs with
  | _ length ih =>
    obtain ⟨line, rest, rfl, hline, rfl | ⟨mark, more, rfl, hm, hr⟩⟩ := exists_isLine cs
    · rw [List.append_nil]
      by_cases hne : line = []
      · subst hne
        exact .nil
      · rw [linesOf_last hline hne]
        exact .last hline hne
    · have hmark : 0 < mark.length := by
        simp only [lineEnds, List.mem_cons, List.not_mem_nil, or_false] at hm
        rcases hm with rfl | rfl | rfl <;> decide
      rw [← List.append_assoc, linesOf_ended hline hm hr]
      refine .ended hline hm hr (ih more.length ?_ more rfl)
      rw [← hlength]
      simp only [List.length_append]
      omega

/-- **Every text has lines**, and no others. -/
theorem isLines_iff {cs : List Char} {lines : List (List Char)} :
    IsLines cs lines ↔ lines = linesOf cs := by
  refine ⟨fun h => ?_, fun h => h ▸ isLines_linesOf cs⟩
  induction h with
  | nil => rfl
  | last hline hne => exact (linesOf_last hline hne).symm
  | ended hline hm hr _ ih => rw [linesOf_ended hline hm hr, ih]

/-- **A file with a text in it** is read as the lines of the text. -/
theorem ofBytes_utf8Bytes (s : String) :
    LineSource.ofBytes (utf8Bytes s) = ⟨(linesOf s.toList).map String.ofList, false⟩ := by
  have hread : readBlocks [] (blocks blockSize (utf8Bytes s)) = (s.toList, false) :=
    readBlocks_utf8Bytes (by decide) s
  unfold LineSource.ofBytes linesOf
  rw [hread]
  dsimp only
  simp only [Bool.false_and, Bool.false_eq_true, if_false, Bool.false_or]

/-! ### Whole texts -/

/-- An ASCII character other than the carriage return. -/
def IsPlain (c : Char) : Prop := c.toNat < 128 ∧ c ≠ '\r'

instance : DecidablePred IsPlain := fun c => inferInstanceAs (Decidable (c.toNat < 128 ∧ c ≠ '\r'))

/-- **A text of plain characters** reads back from the file that it is written to, for none of its
line ends changes. -/
theorem wholeText?_utf8Bytes {s : String} (h : ∀ c ∈ s.toList, IsPlain c) :
    wholeText? (utf8Bytes s) = some s.toList := by
  have hunify := unifyLineEnds_append (fun hm => (h _ hm).2 rfl) []
  rw [List.append_nil] at hunify
  unfold wholeText?
  rw [utf8?_utf8Bytes, Option.map_some, hunify]
  exact congrArg some (List.append_nil s.toList)

end UsageLedger.Text
