/-
UsageLedger/Proofs/Canonical.lean

The canonical form of a path.  The names of a path are the stack that is left when the
parts of a text between slashes are taken from the left (`names_ofText`), and the path is
written as one slash and these names with slashes between them (`text_eq`).

The standard gets there in three steps: a slash is put in front if there is none, the text
is brought to its lexical normal form, in which exactly two slashes in front stay two, and
pairs of slashes are replaced by one.  The first step makes every text absolute, so two dots
are never kept, and the last one finds a pair in front at most, for no name on the stack is
empty (`halve_intercalate`).  So the steps come to the same (`normalize_eq`).
-/
import UsageLedger.Proofs.Ancestor

namespace UsageLedger.Path

variable {s part : String} {stack names : List String} {cs rest : List Char}

/-! ### Stacks of parts -/

/-- The parts of a text between slashes. -/
def parts (s : String) : List String := (Text.pieces '/' s.toList).map String.ofList

/-- A stack after one more part: empty parts and single dots are ignored, two dots remove the last
part. -/
def push (stack : List String) (part : String) : List String :=
  if part = "" ∨ part = "." then stack
  else if part = ".." then stack.dropLast
  else stack ++ [part]

theorem reverse_visit (reversed : List String) (piece : List Char) :
    (visit reversed piece).reverse = push reversed.reverse (String.ofList piece) := by
  have aux (t : String) : String.ofList piece = t ↔ piece = t.toList :=
    ⟨fun h => by rw [← h, String.toList_ofList], fun h => by rw [h, String.ofList_toList]⟩
  have hempty : String.ofList piece = "" ↔ piece = [] := aux ""
  have hdot : String.ofList piece = "." ↔ piece = ['.'] := aux "."
  have hdots : String.ofList piece = ".." ↔ piece = ['.', '.'] := aux ".."
  unfold visit push
  simp only [hempty, hdot, hdots, Bool.or_eq_true, decide_eq_true_eq]
  split
  · rfl
  · split
    · rw [List.dropLast_reverse]
    · rw [List.reverse_cons]

theorem reverse_foldl_visit (pieces : List (List Char)) (reversed : List String) :
    (pieces.foldl visit reversed).reverse =
      (pieces.map String.ofList).foldl push reversed.reverse := by
  induction pieces generalizing reversed with
  | nil => rfl
  | cons piece rest ih =>
    rw [List.foldl_cons, ih, reverse_visit, List.map_cons, List.foldl_cons]

/-- The names of a path are what its parts leave on the stack. -/
theorem names_ofText (s : String) : (ofText s).names = (parts s).foldl push [] :=
  reverse_foldl_visit _ []

theorem flatMap_eq_intercalate (first : String) (others : List String) :
    ((first :: others).flatMap fun name => '/' :: name.toList) =
      '/' :: ['/'].intercalate ((first :: others).map String.toList) := by
  induction others generalizing first with
  | nil => simp
  | cons next others ih =>
    rw [List.flatMap_cons, ih]
    simp [List.intercalate_cons_cons]

theorem toList_text (p : Path) : p.text.toList = '/' :: ['/'].intercalate (p.names.map String.toList) := by
  unfold text chars
  rw [String.toList_ofList]
  cases p.names with
  | nil => rfl
  | cons first others =>
    rw [List.isEmpty_cons, if_neg Bool.false_ne_true]
    exact flatMap_eq_intercalate first others

/-- A path is written as a slash and its names with slashes between them. -/
theorem text_eq (p : Path) : p.text = "/" ++ "/".intercalate p.names := by
  rw [← String.toList_inj, toList_text, String.toList_append, String.toList_intercalate]
  rfl

theorem toList_of_mem {p : Path} {name : String} (h : name ∈ p.names) :
    name.toList ≠ [] ∧ '/' ∉ name.toList := by
  have hvalid := p.valid name h
  simp only [isPathName, Bool.and_eq_true, bne_iff_ne, Bool.not_eq_true', List.contains_eq_mem,
    decide_eq_false_iff_not] at hvalid
  obtain ⟨⟨⟨hne, -⟩, -⟩, hslash⟩ := hvalid
  exact ⟨fun hnil => hne (String.toList_eq_nil_iff.1 hnil), hslash⟩

/-! ### The steps of the standard -/

/-- The slashes that are kept in front: two if there are exactly two, one for any other number. -/
def slashesInFront : List Char → ℕ
  | '/' :: '/' :: '/' :: _ => 1
  | '/' :: '/' :: _ => 2
  | '/' :: _ => 1
  | _ => 0

/-- A stack after one more part, where two dots are kept if nothing before them can be removed. -/
def keep (absolute : Bool) (stack : List String) (part : String) : List String :=
  if part = "" ∨ part = "." then stack
  else if part ≠ ".." ∨ absolute = false ∧ stack = [] ∨ stack.getLast? = some ".." then stack ++ [part]
  else stack.dropLast

/-- The lexical normal form of a text. -/
def lexical (s : String) : String :=
  let slashes := slashesInFront s.toList
  let kept := (parts s).foldl (keep (slashes != 0)) []
  let form := String.ofList (List.replicate slashes '/') ++ "/".intercalate kept
  if form = "" then "." else form

/-- A text with a slash for each pair of slashes, from the left. -/
def halve : List Char → List Char
  | [] => []
  | [c] => [c]
  | c :: c' :: rest => if c = '/' ∧ c' = '/' then '/' :: halve rest else c :: halve (c' :: rest)

/-- The three steps one after another. -/
def normalize (s : String) : String :=
  let absolute := if s.toList.head? = some '/' then s else "/" ++ s
  String.ofList (halve (lexical absolute).toList)

/-! ### Their outcome -/

theorem dots_not_mem_push (h : ".." ∉ stack) (part : String) : ".." ∉ push stack part := by
  unfold push
  split
  · exact h
  · split
    · exact fun hmem => h (List.mem_of_mem_dropLast hmem)
    · rename_i hdots
      simpa [h] using Ne.symm hdots

/-- In an absolute text two dots are never kept. -/
theorem foldl_keep (parts : List String) (h : ".." ∉ stack) :
    parts.foldl (keep true) stack = parts.foldl push stack := by
  induction parts generalizing stack with
  | nil => rfl
  | cons part rest ih =>
    have hlast : stack.getLast? ≠ some ".." := fun hlast => h (List.mem_of_getLast? hlast)
    have hkeep : keep true stack part = push stack part := by
      unfold keep push
      by_cases hdots : part = ".." <;> simp [hdots, hlast]
    rw [List.foldl_cons, List.foldl_cons, hkeep, ih (dots_not_mem_push h part)]

theorem halve_append (h : '/' ∉ cs) : halve (cs ++ rest) = cs ++ halve rest := by
  induction cs with
  | nil => rfl
  | cons c cs ih =>
    obtain ⟨hc, hcs⟩ := not_or.1 (List.mem_cons.not.1 h)
    have ih := ih hcs
    cases htail : cs ++ rest with
    | nil =>
      obtain ⟨rfl, rfl⟩ := List.append_eq_nil_iff.1 htail
      rfl
    | cons c' tail =>
      rw [htail] at ih
      rw [List.cons_append, htail, halve, if_neg fun hboth => hc hboth.1.symm, ih, List.cons_append]

theorem halve_pair (rest : List Char) : halve ('/' :: '/' :: rest) = '/' :: halve rest := by
  rw [halve, if_pos ⟨rfl, rfl⟩]

theorem halve_slash (h : rest.head? ≠ some '/') : halve ('/' :: rest) = '/' :: halve rest := by
  cases rest with
  | nil => rfl
  | cons c rest => rw [halve, if_neg fun hboth => h (by rw [hboth.2]; rfl)]

theorem head?_intercalate (h : ∀ name ∈ names, name.toList ≠ [] ∧ '/' ∉ name.toList) :
    (['/'].intercalate (names.map String.toList)).head? ≠ some '/' := by
  cases names with
  | nil => nofun
  | cons name others =>
    obtain ⟨hne, hslash⟩ := h name List.mem_cons_self
    obtain ⟨c, tail, hname⟩ := List.exists_cons_of_ne_nil hne
    rw [hname] at hslash
    have hc : c ≠ '/' := fun he => hslash (he ▸ List.mem_cons_self)
    cases others with
    | nil => simpa [hname] using hc
    | cons next others => simpa [hname, List.intercalate_cons_cons] using hc

/-- Names with slashes between them have no pair of slashes. -/
theorem halve_intercalate (h : ∀ name ∈ names, name.toList ≠ [] ∧ '/' ∉ name.toList) :
    halve (['/'].intercalate (names.map String.toList)) = ['/'].intercalate (names.map String.toList) := by
  induction names with
  | nil => rfl
  | cons name others ih =>
    obtain ⟨hname, hothers⟩ := List.forall_mem_cons.1 h
    cases others with
    | nil =>
      have hone : halve (name.toList ++ []) = name.toList ++ halve [] := halve_append hname.2
      simpa [halve] using hone
    | cons next others =>
      rw [List.map_cons, List.map_cons, List.intercalate_cons_cons, ← List.map_cons, List.append_assoc,
        halve_append hname.2, List.singleton_append, halve_slash (head?_intercalate hothers), ih hothers]

/-- An absolute text keeps a slash in front, or two. -/
theorem slashesInFront_absolute (rest : List Char) :
    ∃ more, slashesInFront ('/' :: rest) = more + 1 ∧ more ≤ 1 := by
  unfold slashesInFront
  split
  · exact ⟨0, rfl, Nat.zero_le 1⟩
  · exact ⟨1, rfl, le_rfl⟩
  · exact ⟨0, rfl, Nat.zero_le 1⟩
  · simp_all

/-- A slash in front adds an empty part. -/
theorem parts_slash (s : String) : parts ("/" ++ s) = "" :: parts s := by
  unfold parts
  rw [String.toList_append]
  rfl

/-- The lexical normal form of an absolute text: its names after the slashes that are kept. -/
theorem toList_lexical {more : ℕ} (h : slashesInFront s.toList = more + 1) :
    (lexical s).toList =
      List.replicate (more + 1) '/' ++ ['/'].intercalate ((ofText s).names.map String.toList) := by
  have hform : (String.ofList (List.replicate (more + 1) '/') ++
      "/".intercalate ((parts s).foldl (keep (more + 1 != 0)) [])).toList =
        List.replicate (more + 1) '/' ++ ['/'].intercalate ((ofText s).names.map String.toList) := by
    have hslashes : (more + 1 != 0) = true := rfl
    rw [hslashes, foldl_keep _ List.not_mem_nil, ← names_ofText, String.toList_append,
      String.toList_ofList, String.toList_intercalate]
    rfl
  unfold lexical
  dsimp only
  rw [h]
  split
  · rename_i hempty
    rw [hempty] at hform
    simp at hform
  · exact hform

/-- **The steps of the standard come to the path** that a text names. -/
theorem normalize_eq (s : String) : normalize s = (ofText s).text := by
  obtain ⟨absolute, rest, habsolute, hrest, hnames⟩ : ∃ absolute rest,
      absolute = (if s.toList.head? = some '/' then s else "/" ++ s) ∧ absolute.toList = '/' :: rest ∧
        (ofText absolute).names = (ofText s).names := by
    split
    · rename_i hhead
      obtain ⟨rest, hrest⟩ := List.head?_eq_some_iff.1 hhead
      exact ⟨s, rest, rfl, hrest, rfl⟩
    · refine ⟨"/" ++ s, s.toList, rfl, by rw [String.toList_append]; rfl, ?_⟩
      rw [names_ofText, names_ofText, parts_slash]
      rfl
  have hvalid (name : String) (hname : name ∈ (ofText s).names) := toList_of_mem hname
  have hhalve := halve_intercalate hvalid
  obtain ⟨more, hslashes, hmore⟩ := slashesInFront_absolute rest
  unfold normalize
  rw [← habsolute, ← String.toList_inj, String.toList_ofList, toList_text,
    toList_lexical (hrest ▸ hslashes), hnames]
  obtain rfl | rfl : more = 0 ∨ more = 1 := by omega
  · exact (halve_slash (head?_intercalate hvalid)).trans (congrArg _ hhalve)
  · exact (halve_pair _).trans (congrArg _ hhalve)

/-! ### Canonical texts -/

/-- A canonical text: one slash in front, none at the end unless that is all, and between slashes no
part that is empty or stands for another directory. -/
structure IsCanonical (t : String) : Prop where
  front : ∃ rest, t.toList = '/' :: rest ∧ rest.head? ≠ some '/'
  last : t ≠ "/" → t.toList.getLast? ≠ some '/'
  parts : t ≠ "/" → ∃ others, parts t = "" :: others ∧
    ∀ part ∈ others, part ≠ "" ∧ part ≠ "." ∧ part ≠ ".."

theorem intercalate_ne_nil (hne : names ≠ [])
    (h : ∀ name ∈ names, name.toList ≠ [] ∧ '/' ∉ name.toList) :
    ['/'].intercalate (names.map String.toList) ≠ [] := by
  obtain ⟨name, others, rfl⟩ := List.exists_cons_of_ne_nil hne
  have hname := (h name List.mem_cons_self).1
  cases others with
  | nil => simpa using hname
  | cons next others => simp [List.intercalate_cons_cons]

theorem getLast?_intercalate (h : ∀ name ∈ names, name.toList ≠ [] ∧ '/' ∉ name.toList) :
    (['/'].intercalate (names.map String.toList)).getLast? ≠ some '/' := by
  induction names with
  | nil => nofun
  | cons name others ih =>
    obtain ⟨⟨-, hslash⟩, hothers⟩ := List.forall_mem_cons.1 h
    cases others with
    | nil => simpa using fun hlast => hslash (List.mem_of_getLast? hlast)
    | cons next others =>
      -- What is joined to a name after a slash is not empty, so the last character is its own.
      have hne := intercalate_ne_nil (List.cons_ne_nil next others) hothers
      have ih := ih hothers
      rw [List.getLast?_eq_some_getLast hne] at ih
      rwa [List.map_cons, List.map_cons, List.intercalate_cons_cons, ← List.map_cons,
        List.getLast?_append, List.getLast?_eq_some_getLast hne, Option.some_or]

theorem parts_text {p : Path} (h : p.names ≠ []) : parts p.text = "" :: p.names := by
  unfold parts text chars
  rw [if_neg (by simpa using h), String.toList_ofList, pieces_flatMap p.valid]
  simp

theorem isCanonical_text (p : Path) : IsCanonical p.text := by
  have hvalid (name : String) (hname : name ∈ p.names) := toList_of_mem hname
  have hnames (hroot : p.text ≠ "/") : p.names ≠ [] := by
    intro hnil
    rw [text_eq, hnil] at hroot
    exact hroot rfl
  refine ⟨⟨_, toList_text p, head?_intercalate hvalid⟩, fun hroot => ?_, fun hroot => ?_⟩
  · have hne := intercalate_ne_nil (hnames hroot) hvalid
    have hlast := getLast?_intercalate hvalid
    rw [List.getLast?_eq_some_getLast hne] at hlast
    rwa [toList_text, List.getLast?_cons, List.getLast?_eq_some_getLast hne, Option.getD_some]
  · refine ⟨p.names, parts_text (hnames hroot), fun name hname => ?_⟩
    have hname := p.valid name hname
    simp only [isPathName, Bool.and_eq_true, bne_iff_ne] at hname
    exact ⟨hname.1.1.1, hname.1.1.2, hname.1.2⟩

theorem intercalate_parts (s : String) : "/".intercalate (parts s) = s := by
  rw [← String.toList_inj, String.toList_intercalate, parts, List.map_map]
  have hid : String.toList ∘ String.ofList = id := funext fun _ => String.toList_ofList
  rw [hid, List.map_id]
  exact Text.intercalate_pieces '/' s.toList

/-- **The canonical form of any text.**  Its parts, taken from the left, leave a stack; the path is
written as a slash and the stack with slashes between, which is what the steps of the standard come
to.  What is written is canonical, and it is its own canonical form. -/
theorem text_canonical (s : String) :
    ∃ given stack : List String,
      given ≠ [] ∧ (∀ part ∈ given, '/' ∉ part.toList) ∧ "/".intercalate given = s ∧
        stack = given.foldl push [] ∧
        (ofText s).text = (if stack = [] then "/" else "/" ++ "/".intercalate stack) ∧
        (ofText s).text = normalize s ∧ IsCanonical (ofText s).text ∧
        (ofText (ofText s).text).text = (ofText s).text := by
  refine ⟨parts s, (ofText s).names, ?_, ?_, intercalate_parts s, names_ofText s, ?_,
    (normalize_eq s).symm, isCanonical_text _, by rw [ofText_text]⟩
  · exact List.map_eq_nil_iff.not.2 (Text.pieces_ne_nil '/' s.toList)
  · intro part hpart
    obtain ⟨piece, hpiece, rfl⟩ := List.mem_map.1 hpart
    rw [String.toList_ofList]
    exact Text.not_mem_of_mem_pieces '/' hpiece
  · rw [text_eq]
    split
    · rename_i hnil
      rw [hnil]
      rfl
    · rfl

end UsageLedger.Path
