/-
UsageLedger/Proofs/Snapshot/Depth.lean

A type that is nested too deeply to be shown.  A reader of JSON takes more levels than
there may be room to go through once more, so a line may be read and still not be refused
with a message: the loading breaks off instead (`load_of_deepLine`).
-/
import UsageLedger.Proofs.Json.RoundTrip
import UsageLedger.Proofs.Snapshot.Contents
import UsageLedger.Facilities

namespace UsageLedger

namespace Json

/-- An empty list in so many others. -/
def nested : ℕ → Json
  | 0 => .list []
  | n + 1 => .list [nested n]

/-- The brackets of such a list. -/
def brackets : ℕ → List Char
  | 0 => ['[', ']']
  | n + 1 => '[' :: (brackets n ++ [']'])

theorem levels_nested (n : ℕ) : (nested n).levels = n + 1 := by
  induction n with
  | zero => rfl
  | succ n ih =>
    show 1 + max (nested n).levels 0 = n + 2
    rw [ih]
    omega

theorem plain_nested (n : ℕ) : (nested n).Plain (n + 1) := by
  induction n with
  | zero => exact .list (List.forall_mem_nil _)
  | succ n ih => exact .list (List.forall_mem_singleton.2 ih)

theorem spells_brackets (n : ℕ) {rest : List Char} {ts : List Token} (h : Spells rest ts) :
    Spells (brackets n ++ rest) (tokens (nested n) ++ ts) := by
  induction n generalizing rest ts with
  | zero => exact .mark rfl (by decide) rfl (.mark rfl (by decide) rfl h)
  | succ n ih =>
    have hinner := ih (.mark rfl (by decide) rfl h : Spells (']' :: rest) (.closeList :: ts))
    have hchars : brackets (n + 1) ++ rest = '[' :: (brackets n ++ ']' :: rest) := by
      simp [brackets]
    have htokens : tokens (nested (n + 1)) ++ ts = .openList :: (tokens (nested n) ++ .closeList :: ts) := by
      simp [nested, tokens, itemTokens]
    rw [hchars, htokens]
    exact .mark rfl (by decide) rfl hinner

theorem mem_brackets {n : ℕ} {c : Char} (h : c ∈ brackets n) : c = '[' ∨ c = ']' := by
  induction n with
  | zero => simpa [brackets] using h
  | succ n ih =>
    simp only [brackets, List.mem_cons, List.mem_append, List.not_mem_nil, or_false] at h
    tauto

end Json

namespace Snapshot

/-- What stands on a line before the type. -/
def beforeType : List Char :=
  (Json.openBrace ++ "\"path\": \"a\",\"type\": ").toList

/-- A line with a path and a type of so many levels and one more. -/
def deepLine (n : ℕ) : String :=
  String.ofList (beforeType ++ (Json.brackets n ++ Json.closeBrace.toList))

/-- The members on such a line. -/
def deepMembers (n : ℕ) : Catalog String Json := [("path", .text "a"), ("type", Json.nested n)]

theorem parse?_deepLine {n : ℕ} (h : n + 2 ≤ 1024) :
    Json.parse? .standard (deepLine n) = some (.object (deepMembers n)) := by
  have hplain : (Json.object (deepMembers n)).Plain 1024 := by
    have hobject : (Json.object (deepMembers n)).Plain (n + 2) :=
      .object (show ["path", "type"].Nodup by decide)
        (List.forall_mem_cons.2 ⟨.text _ _, List.forall_mem_singleton.2 (Json.plain_nested n)⟩)
    exact hobject.mono h
  have hend : Json.Spells Json.closeBrace.toList [.closeObject] := .mark rfl (by decide) rfl .nil
  have hspells : Json.Spells (deepLine n).toList (Json.tokens (.object (deepMembers n))) := by
    have hbefore : beforeType = Char.ofNat 0x7b :: ((Json.string true "path").toList ++ ':' :: ' ' ::
        ((Json.string true "a").toList ++ ',' :: ((Json.string true "type").toList ++ [':', ' ']))) := by
      decide +kernel
    have htokens : Json.tokens (.object (deepMembers n)) = .openObject :: .scalar (.text "path") ::
        .colon :: .scalar (.text "a") :: .comma :: .scalar (.text "type") :: .colon ::
          (Json.tokens (Json.nested n) ++ [.closeObject]) := by
      simp [deepMembers, Json.tokens, Json.memberTokens]
    rw [deepLine, String.toList_ofList, hbefore, htokens]
    simp only [List.cons_append, List.append_assoc, List.nil_append]
    have htype := Json.Spells.name "type" (Json.spells_brackets n hend)
    have hcomma : Json.Spells (',' :: _) (.comma :: _) := .mark rfl (by decide) rfl htype
    exact .mark rfl (by decide) rfl (.name "path" (.token (Json.tokenAt_string true "a" _) hcomma))
  exact Json.parse?_of_spells hplain hspells

/-- An entry with a path is not refused for a type that is too deep. -/
theorem Entry.ofMembers_of_overdeep {room : ℕ} {members : Catalog String Json} {given : String}
    (hpath : members.find? "path" = some (.text given)) (hne : given ≠ "") (h : Overdeep room members)
    (place : Place) : Entry.ofMembers room place members = .error .tooDeep := by
  have hempty : given.isEmpty = false := by
    rw [← Bool.not_eq_true, String.isEmpty_iff]
    exact hne
  unfold Entry.ofMembers
  rw [hpath]
  dsimp only [Option.getD_some, Json.text?]
  rw [hempty, h.uncounted, Json.displayWithin, if_pos h.deep]
  rfl

theorem overdeep_deepMembers {room n : ℕ} (hroom : room ≤ n) : Overdeep room (deepMembers n) where
  uncounted := by
    show (NodeKind.ofTag (Json.nested n)).isCounted = false
    cases n <;> rfl
  deep := by
    show (Json.nested n).exceeds room = true
    have hlevels : decide (room < (Json.nested n).levels) = true := by
      rw [Json.levels_nested]
      exact decide_eq_true (by omega)
    cases n <;> exact hlevels

theorem parse_deepLine {room n : ℕ} (hroom : room ≤ n) (h : n + 2 ≤ 1024) (place : Place) :
    Entry.parse room place (deepLine n) = .error .tooDeep := by
  have hpath : (deepMembers n).find? "path" = some (.text "a") := rfl
  have hentry := Entry.ofMembers_of_overdeep hpath (by decide) (overdeep_deepMembers hroom) place
  unfold Entry.parse
  rw [parse?_deepLine h]
  exact hentry

theorem isLine_deepLine (n : ℕ) : Text.IsLine (deepLine n).toList := by
  have hmem {c : Char} (hc : c ∈ (deepLine n).toList) : c ≠ '\n' ∧ c ≠ '\r' := by
    rw [deepLine, String.toList_ofList, List.mem_append, List.mem_append] at hc
    have hends : ∀ c ∈ beforeType ++ Json.closeBrace.toList, c ≠ '\n' ∧ c ≠ '\r' := by
      -- As a test of one list: the quantifier alone would be tried on all characters.
      have hall : (beforeType ++ Json.closeBrace.toList).all (fun c => c != '\n' && c != '\r') = true := by
        decide +kernel
      intro c hc
      have htest := List.all_eq_true.1 hall c hc
      rw [Bool.and_eq_true, bne_iff_ne, bne_iff_ne] at htest
      exact htest
    rcases hc with hc | hc | hc
    · exact hends c (List.mem_append_left _ hc)
    · rcases Json.mem_brackets hc with rfl | rfl <;> decide
    · exact hends c (List.mem_append_right _ hc)
  exact ⟨fun hc => (hmem hc).1 rfl, fun hc => (hmem hc).2 rfl⟩

/-- **A type too deep to be shown breaks the loading off.** -/
theorem load_of_deepLine {room n : ℕ} (hroom : room ≤ n) (h : n + 2 ≤ 1024) (verbose : Bool)
    (file : String) : (load room verbose file (.ofText (deepLine n))).2 = .error .tooDeep := by
  have hlines : Text.IsLines (deepLine n).toList ([deepLine n].map String.toList) :=
    .last (isLine_deepLine n) (by simp [deepLine, beforeType, String.toList_ofList])
  have hblank : Text.isBlankText (deepLine n) = false := by
    have hopen : Char.ofNat 0x7b ∈ (deepLine n).toList := by
      rw [deepLine, String.toList_ofList]
      exact List.mem_append_left _ (by decide +kernel)
    rw [← Bool.not_eq_true]
    intro hall
    exact absurd (List.all_eq_true.1 hall _ hopen) (by decide)
  have hadd : addLines room file [] 1 [deepLine n] = .error .tooDeep := by
    unfold addLines
    rw [hblank, parse_deepLine hroom h]
    rfl
  unfold load
  rw [readNodes_ofText hlines, hadd]

/-- **A type of a thousand levels is no fault of the snapshot**, and no line is named. -/
theorem load_broken_by_deep_type :
    (load Facilities.standard.showing false "tree.jsonl" (.ofText (deepLine 1020))).2 = .error .tooDeep :=
  load_of_deepLine (by decide) (by decide) false "tree.jsonl"

end Snapshot

end UsageLedger
