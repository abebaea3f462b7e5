/-
UsageLedger/Path.lean

Absolute paths as lists of names, the root being the empty list.  Reading a text
leaves out empty names and single dots, and two dots take back the name before
them, so every text has a path.

Main statement: `ofText_text` says that a written path is read back, so paths
and their texts are one to one.
-/
import UsageLedger.Text.Pieces

namespace UsageLedger

/-- What a name in a path may be: not empty, no dots alone, no slash. -/
def isPathName (name : String) : Bool :=
  name != "" && name != "." && name != ".." && !name.toList.contains '/'

/-- An absolute path: the names from the root down. -/
structure Path where
  names : List String
  valid : ∀ name ∈ names, isPathName name = true
  deriving DecidableEq

namespace Path

/-- The root. -/
def root : Path := ⟨[], by simp⟩

instance : Inhabited Path := ⟨root⟩

/-! ### Reading and writing -/

/-- Adds a piece of text to the names read so far, which stand in reverse. -/
def visit (reversed : List String) (piece : List Char) : List String :=
  if piece = [] || piece = ['.'] then reversed
  else if piece = ['.', '.'] then reversed.tail
  else String.ofList piece :: reversed

theorem isPathName_ofList {piece : List Char} (h₀ : piece ≠ []) (h₁ : piece ≠ ['.'])
    (h₂ : piece ≠ ['.', '.']) (h : '/' ∉ piece) : isPathName (String.ofList piece) = true := by
  have aux (t : String) (ht : piece ≠ t.toList) : String.ofList piece ≠ t := fun he =>
    ht (by rw [← he, String.toList_ofList])
  simp [isPathName, h, aux "" (by simpa using h₀), aux "." (by simpa using h₁),
    aux ".." (by simpa using h₂)]

theorem isPathName_visit {reversed : List String} {piece : List Char}
    (hr : ∀ name ∈ reversed, isPathName name = true) (hp : '/' ∉ piece) :
    ∀ name ∈ visit reversed piece, isPathName name = true := by
  unfold visit
  split
  · exact hr
  · rename_i h₀
    split
    · exact fun name h => hr name (List.mem_of_mem_tail h)
    · rename_i h₂
      simp only [Bool.or_eq_true, decide_eq_true_eq, not_or] at h₀
      intro name h
      rcases List.mem_cons.1 h with rfl | h
      · exact isPathName_ofList h₀.1 h₀.2 h₂ hp
      · exact hr name h

theorem isPathName_foldl_visit {pieces : List (List Char)} {reversed : List String}
    (hr : ∀ name ∈ reversed, isPathName name = true) (hp : ∀ piece ∈ pieces, '/' ∉ piece) :
    ∀ name ∈ pieces.foldl visit reversed, isPathName name = true := by
  induction pieces generalizing reversed with
  | nil => exact hr
  | cons piece rest ih =>
    exact ih (isPathName_visit hr (hp piece List.mem_cons_self))
      fun q hq => hp q (List.mem_cons_of_mem piece hq)

/-- The path that a text names. -/
def ofText (s : String) : Path where
  names := ((Text.pieces '/' s.toList).foldl visit []).reverse
  valid := by
    intro name h
    exact isPathName_foldl_visit (by simp) (fun _ hp => Text.not_mem_of_mem_pieces '/' hp) name
      (List.mem_reverse.1 h)

/-- The characters of a path: a slash before each name. -/
def chars (p : Path) : List Char :=
  if p.names.isEmpty then ['/'] else p.names.flatMap fun name => '/' :: name.toList

/-- A path as text. -/
def text (p : Path) : String := String.ofList p.chars

theorem visit_name {reversed : List String} {name : String} (h : isPathName name = true) :
    visit reversed name.toList = name :: reversed := by
  have aux (cs : List Char) (hc : name ≠ String.ofList cs) : name.toList ≠ cs := fun he =>
    hc (by rw [← he, String.ofList_toList])
  simp only [isPathName, Bool.and_eq_true, bne_iff_ne] at h
  obtain ⟨⟨⟨h₀, h₁⟩, h₂⟩, _⟩ := h
  have k₀ := aux [] h₀
  have k₁ := aux ['.'] h₁
  have k₂ := aux ['.', '.'] h₂
  simp only [visit, k₀, k₁, k₂, decide_false, Bool.or_self, Bool.false_eq_true, if_false,
    String.ofList_toList]

theorem pieces_flatMap {names : List String} (h : ∀ name ∈ names, isPathName name = true) :
    Text.pieces '/' (names.flatMap fun name => '/' :: name.toList) =
      [] :: names.map String.toList := by
  induction names with
  | nil => rfl
  | cons name rest ih =>
    have hn : '/' ∉ name.toList := by
      have := h name List.mem_cons_self
      simp [isPathName] at this
      exact this.2
    have ih := ih fun n hn => h n (List.mem_cons_of_mem name hn)
    cases rest with
    | nil => simp [Text.pieces, Text.pieces_eq_singleton '/' hn]
    | cons next rest =>
      simp only [List.flatMap_cons, List.cons_append] at ih ⊢
      simp only [Text.pieces, beq_self_eq_true, if_true] at ih ⊢
      rw [Text.pieces_append_cons '/' _ hn]
      simp only [List.cons.injEq, true_and] at ih
      rw [ih]
      rfl

theorem foldl_visit_names {names reversed : List String}
    (h : ∀ name ∈ names, isPathName name = true) :
    (names.map String.toList).foldl visit reversed = names.reverse ++ reversed := by
  induction names generalizing reversed with
  | nil => rfl
  | cons name rest ih =>
    simp [visit_name (h name List.mem_cons_self), ih fun n hn => h n (List.mem_cons_of_mem name hn)]

theorem ofText_text (p : Path) : ofText p.text = p := by
  obtain ⟨names, valid⟩ := p
  have hv : visit [] [] = [] := rfl
  cases names with
  | nil => simp [ofText, text, chars, Text.pieces, hv]
  | cons name rest =>
    have hp := pieces_flatMap valid
    have hf := @foldl_visit_names _ [] valid
    simp only [ofText, text, chars, List.isEmpty_cons, String.toList_ofList, hp, List.foldl_cons, hv,
      hf, Bool.false_eq_true, if_false, List.append_nil, List.reverse_reverse]

/-! ### Relations between paths -/

/-- The directory that holds what a path names; the root holds itself. -/
def parent (p : Path) : Path := ⟨p.names.dropLast, fun n h => p.valid n (List.mem_of_mem_take (List.dropLast_eq_take ▸ h))⟩

/-- The last name; the root has none. -/
def lastName? (p : Path) : Option String := p.names.getLast?

/-- Whether a path is another one or lies below it. -/
def Within (p q : Path) : Prop := q.names <+: p.names

instance (p q : Path) : Decidable (p.Within q) := inferInstanceAs (Decidable (q.names <+: p.names))

theorem length_parent {p : Path} (h : p ≠ root) : p.parent.names.length < p.names.length := by
  have : p.names ≠ [] := fun he => h (by cases p; simp_all [root])
  have := List.length_pos_iff.2 this
  simp [parent]
  omega

end Path

end UsageLedger
