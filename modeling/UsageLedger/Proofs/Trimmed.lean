/-
UsageLedger/Proofs/Trimmed.lean

Slashes at the end of a path.  A text is read as a path piece by piece, and between
slashes at its end there are empty pieces only, which are passed over.  So a path of
a cluster, written with slashes at the end or without, is one path
(`Path.ofText_trimmedPath`).
-/
import Mathlib.Data.List.TakeWhile
import UsageLedger.Cluster.Entry
import UsageLedger.Proofs.Ancestor

namespace UsageLedger

theorem Text.pieces_append (mark : Char) (cs rest : List Char) :
    pieces mark (cs ++ mark :: rest) = pieces mark cs ++ pieces mark rest := by
  induction cs with
  | nil => simp [pieces]
  | cons c cs ih =>
    obtain ⟨piece, more, hp⟩ := List.exists_cons_of_ne_nil (pieces_ne_nil mark cs)
    by_cases hc : c = mark
    · simp [pieces, hc, ih]
    · simp [pieces, hc, ih, hp]

/-- Between slashes there is nothing. -/
theorem Text.eq_nil_of_mem_pieces {mark : Char} {cs piece : List Char} (h : ∀ c ∈ cs, c = mark)
    (hp : piece ∈ pieces mark cs) : piece = [] := by
  induction cs with
  | nil => simpa [pieces] using hp
  | cons c rest ih =>
    obtain rfl : c = mark := h c List.mem_cons_self
    simp only [pieces, beq_self_eq_true, if_true, List.mem_cons] at hp
    rcases hp with rfl | hp
    · rfl
    · exact ih (fun c hc => h c (List.mem_cons_of_mem _ hc)) hp

/-- Slashes at the end of a path do not change what is read. -/
theorem Path.foldl_visit_slashes {cs slashes : List Char} (h : ∀ c ∈ slashes, c = '/')
    (reversed : List String) :
    (Text.pieces '/' (cs ++ slashes)).foldl visit reversed = (Text.pieces '/' cs).foldl visit reversed := by
  have silent {pieces : List (List Char)} (hp : ∀ piece ∈ pieces, piece = []) (reversed : List String) :
      pieces.foldl visit reversed = reversed := by
    induction pieces generalizing reversed with
    | nil => rfl
    | cons piece rest ih =>
      obtain rfl : piece = [] := hp piece List.mem_cons_self
      exact ih (fun piece hm => hp piece (List.mem_cons_of_mem _ hm)) reversed
  cases slashes with
  | nil => rw [List.append_nil]
  | cons c rest =>
    obtain rfl : c = '/' := h c List.mem_cons_self
    rw [Text.pieces_append, List.foldl_append]
    exact silent (fun piece hm =>
      Text.eq_nil_of_mem_pieces (fun c hc => h c (List.mem_cons_of_mem _ hc)) hm) _

theorem Path.ofText_trimmedPath (s : String) : Path.ofText (Cluster.trimmedPath s) = Path.ofText s := by
  obtain ⟨slashes, hall, hs⟩ : ∃ slashes, (∀ c ∈ slashes, c = '/') ∧
      s.toList = Cluster.trimmed s ++ slashes := by
    refine ⟨(s.toList.reverse.takeWhile (· == '/')).reverse, fun c hc => ?_, ?_⟩
    · have hslash := List.mem_takeWhile_imp (List.mem_reverse.1 hc)
      exact eq_of_beq hslash
    · unfold Cluster.trimmed
      rw [← List.reverse_append, List.takeWhile_append_dropWhile, List.reverse_reverse]
  have hread : (ofText s).names = ((Text.pieces '/' (Cluster.trimmed s)).foldl visit []).reverse := by
    show ((Text.pieces '/' s.toList).foldl visit []).reverse = _
    rw [hs, foldl_visit_slashes hall]
  apply ext_names
  rw [hread]
  unfold Cluster.trimmedPath
  dsimp only
  split
  · rename_i he
    rw [List.isEmpty_iff.1 he]
    rfl
  · show ((Text.pieces '/' (String.ofList _).toList).foldl visit []).reverse = _
    rw [String.toList_ofList]

end UsageLedger
