/-
UsageLedger/Proofs/Url/Query.lean

Addresses with parameters read back.  An address on the same host begins with one slash, so
it has neither scheme nor authority, and what stands after the question mark is the query
(`parse_local`).  A query of encoded names and values gives back the parameters in order,
but for those whose value is empty (`parameters_of_isField`).
-/
import Mathlib.Data.List.Forall2
import UsageLedger.Proofs.Url.Percent
import UsageLedger.Url.Basic

namespace UsageLedger.Url

open Text

variable {mark c : Char} {cs rest place query : List Char} {field : List Char}
  {parameter : String × String}

/-! ### Cutting -/

theorem cut_of_not_mem (h : mark ∉ cs) : cut mark cs = (cs, none) := by
  have hall (d : Char) (hd : d ∈ cs) : (d != mark) = true := bne_iff_ne.2 fun he => h (he ▸ hd)
  have hdrop : (cs ++ []).dropWhile (· != mark) = [] := List.dropWhile_append_of_pos hall
  rw [List.append_nil] at hdrop
  rw [cut, hdrop]

theorem cut_append_cons (h : mark ∉ cs) (rest : List Char) :
    cut mark (cs ++ mark :: rest) = (cs, some rest) := by
  have hall (d : Char) (hd : d ∈ cs) : (d != mark) = true := bne_iff_ne.2 fun he => h (he ▸ hd)
  have hdrop : (cs ++ mark :: rest).dropWhile (· != mark) = mark :: rest := by
    rw [List.dropWhile_append_of_pos hall, List.dropWhile_cons_of_neg (by simp)]
  have htake : (cs ++ mark :: rest).takeWhile (· != mark) = cs := by
    rw [List.takeWhile_append_of_pos hall, List.takeWhile_cons_of_neg (by simp), List.append_nil]
  rw [cut, hdrop, htake]

/-! ### Addresses on the same host -/

/-- What begins with a slash has no scheme. -/
theorem dropScheme_slash (cs : List Char) : dropScheme ('/' :: cs) = '/' :: cs := by
  unfold dropScheme cut
  cases ('/' :: cs).dropWhile (· != ':') with
  | nil => rfl
  | cons => rfl

theorem takeAuthority_slash (hc : c ≠ '/') (cs : List Char) :
    takeAuthority ('/' :: c :: cs) = ([], '/' :: c :: cs) := by
  unfold takeAuthority
  split
  · rename_i heq
    cases heq
    exact absurd rfl hc
  · rfl

/-- Line breaks and tabs are dropped from an address; where all can be seen there are none. -/
theorem filter_visible (h : ∀ d ∈ cs, 0x20 < d.toNat) :
    cs.filter (fun d => !(d == '\t' || d == '\n' || d == '\r')) = cs := by
  refine List.filter_eq_self.2 fun d hd => ?_
  have hseen := h d hd
  rw [Bool.not_eq_true', Bool.or_eq_false_iff, Bool.or_eq_false_iff, beq_eq_false_iff_ne,
    beq_eq_false_iff_ne, beq_eq_false_iff_ne]
  refine ⟨⟨?_, ?_⟩, ?_⟩ <;> (rintro rfl; exact absurd hseen (by decide))

/-- **An address on the same host** is a place and a query. -/
theorem parse_local (hc : c ≠ '/') (hvisible : ∀ d ∈ c :: place ++ '?' :: query, 0x20 < d.toNat)
    (hplace : '?' ∉ c :: place) (hfragment : '#' ∉ c :: place ++ '?' :: query) :
    parse (String.ofList ('/' :: (c :: place ++ '?' :: query))) = .ok ⟨[], query⟩ := by
  have hkept := filter_visible (List.forall_mem_cons.2 ⟨(by decide : 0x20 < '/'.toNat), hvisible⟩)
  have hwhole : cut '#' ('/' :: (c :: place ++ '?' :: query)) =
      ('/' :: (c :: place ++ '?' :: query), none) :=
    cut_of_not_mem (List.not_mem_cons_of_ne_of_not_mem (by decide) hfragment)
  have hbefore : '?' ∉ '/' :: c :: place := List.not_mem_cons_of_ne_of_not_mem (by decide) hplace
  have hquery : cut '?' ('/' :: (c :: place ++ '?' :: query)) = ('/' :: c :: place, some query) :=
    cut_append_cons hbefore query
  have hauthority : takeAuthority ('/' :: (c :: place ++ '?' :: query)) =
      ([], '/' :: (c :: place ++ '?' :: query)) := takeAuthority_slash hc _
  unfold parse
  dsimp only
  rw [String.toList_ofList, List.dropWhile_cons_of_neg (by decide), hkept, dropScheme_slash, hauthority]
  dsimp only
  rw [hwhole]
  dsimp only
  rw [hquery]
  rfl

/-! ### Parameters -/

/-- A parameter written with encoded name and value. -/
def IsField (parameter : String × String) (field : List Char) : Prop :=
  ∃ name value, Encodes (utf8Bytes parameter.1) name ∧ Encodes (utf8Bytes parameter.2) value ∧
    field = name ++ '=' :: value

theorem IsField.visible (h : IsField parameter field) (hc : c ∈ field) : 0x20 < c.toNat := by
  obtain ⟨name, value, hname, hvalue, rfl⟩ := h
  simp only [List.mem_append, List.mem_cons] at hc
  rcases hc with hc | rfl | hc
  · exact (hname.visible hc).1
  · decide
  · exact (hvalue.visible hc).1

/-- In a field no mark occurs but the equals sign. -/
theorem IsField.not_mem (h : IsField parameter field) (hm : mark ∈ marks) (hne : mark ≠ '=') :
    mark ∉ field := by
  obtain ⟨name, value, hname, hvalue, rfl⟩ := h
  rw [List.mem_append, List.mem_cons, not_or, not_or]
  exact ⟨hname.not_mem hm, hne, hvalue.not_mem hm⟩

/-- A field is cut into what the name and the value are read from. -/
theorem IsField.exists_cut (h : IsField parameter field) :
    ∃ name value, cut '=' field = (name, some value) ∧ (value = [] ↔ parameter.2 = "") ∧
      String.ofList (decodeQuery name) = parameter.1 ∧ String.ofList (decodeQuery value) = parameter.2 := by
  obtain ⟨name, value, hname, hvalue, rfl⟩ := h
  refine ⟨name, value, cut_append_cons (hname.not_mem (by decide)) value, ?_, ?_, ?_⟩
  · exact hvalue.eq_nil_iff.trans utf8Bytes_eq_nil_iff
  · rw [decodeQuery_of_encodes hname, String.ofList_toList]
  · rw [decodeQuery_of_encodes hvalue, String.ofList_toList]

variable {parameters : List (String × String)} {fields : List (List Char)}

theorem exists_isField (h : List.Forall₂ IsField parameters fields) (hfield : field ∈ fields) :
    ∃ parameter, IsField parameter field := by
  induction h with
  | nil => cases hfield
  | cons hhead _ ih =>
    rcases List.mem_cons.1 hfield with rfl | hfield
    · exact ⟨_, hhead⟩
    · exact ih hfield

/-- A query of encoded parameters can be seen, and no fragment begins in it. -/
theorem visible_query (h : List.Forall₂ IsField parameters fields) (hc : c ∈ ['&'].intercalate fields) :
    0x20 < c.toNat ∧ c ≠ '#' := by
  rcases mem_of_mem_intercalate hc with rfl | ⟨field, hfield, hc⟩
  · decide
  · obtain ⟨parameter, hparameter⟩ := exists_isField h hfield
    refine ⟨hparameter.visible hc, ?_⟩
    rintro rfl
    exact hparameter.not_mem (by decide) (by decide) hc

/-- **Parameters are read back** in order, but for those with an empty value. -/
theorem parameters_of_isField (h : List.Forall₂ IsField parameters fields) (hne : fields ≠ []) (authority : List Char) :
    Url.parameters ⟨authority, ['&'].intercalate fields⟩ = parameters.filter (·.2 ≠ "") := by
  have hmarks : ∀ field ∈ fields, '&' ∉ field := by
    intro field hfield
    obtain ⟨parameter, hparameter⟩ := exists_isField h hfield
    exact hparameter.not_mem (by decide) (by decide)
  unfold Url.parameters
  rw [pieces_intercalate '&' hne hmarks]
  clear hne hmarks
  induction h with
  | nil => rfl
  | @cons parameter field _ _ hfield _ ih =>
    obtain ⟨name, value, hcut, hempty, hname, hvalue⟩ := hfield.exists_cut
    rw [List.filterMap_cons, hcut]
    cases value with
    | nil => rw [List.filter_cons_of_neg (by simpa using hempty.1 rfl), ← ih]
    | cons c value =>
      have hsome : parameter.2 ≠ "" := fun he => absurd (hempty.2 he) (List.cons_ne_nil c value)
      dsimp only
      rw [hname, hvalue, List.filter_cons_of_pos (by simpa using hsome), ← ih]

end UsageLedger.Url
