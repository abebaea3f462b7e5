/-
UsageLedger/Proofs/Json/RoundTrip.lean

What is written of a value into a file is read back as that value.  The way leads over
the tokens of the value: the text, its indentation apart, is read as these tokens
(`spells_indentedAt`), and the parser makes the value of them (`run_tokens`).

The values are those without double precision numbers, whose whole numbers are not too
long and in which no object has two members of one name (`Plain`).  Their nesting is
bounded, for the parser refuses what is nested too deeply.
-/
import UsageLedger.Proofs.Json.Scalars
import UsageLedger.Files

namespace UsageLedger

namespace Json

open Number

/-- A value without double precision numbers, nested no deeper than a number says. -/
inductive Plain : Nat → Json → Prop
  | null (depth : Nat) : Plain depth .null
  | bool (depth : Nat) (b : Bool) : Plain depth (.bool b)
  | int (depth : Nat) {n : Int} (small : n.natAbs < 10 ^ maxDigits) : Plain depth (.int n)
  | text (depth : Nat) (s : String) : Plain depth (.text s)
  | list {depth : Nat} {items : List Json} (inner : ∀ v ∈ items, Plain depth v) :
      Plain (depth + 1) (.list items)
  | object {depth : Nat} {members : Catalog String Json} (distinct : members.keys.Nodup)
      (inner : ∀ m ∈ members, Plain depth m.2) : Plain (depth + 1) (.object members)

/-- Whole numbers of 64 bits are not too long. -/
theorem small_of_natAbs_le {n : Int} (h : n.natAbs ≤ 2 ^ 64) : n.natAbs < 10 ^ maxDigits :=
  calc n.natAbs ≤ 2 ^ 64 := h
    _ < 10 ^ 20 := by decide
    _ ≤ 10 ^ maxDigits := Nat.pow_le_pow_right (by decide) (by decide)

theorem Plain.mono {v : Json} {depth bound : Nat} (h : Plain depth v) (hle : depth ≤ bound) :
    Plain bound v := by
  induction h generalizing bound with
  | null => exact .null bound
  | bool _ b => exact .bool bound b
  | int _ small => exact .int bound small
  | text _ s => exact .text bound s
  | list _ ih =>
    obtain ⟨more, rfl⟩ := Nat.exists_eq_add_of_le' hle
    exact .list fun v hv => ih v hv (Nat.le_add_left _ _)
  | object distinct _ ih =>
    obtain ⟨more, rfl⟩ := Nat.exists_eq_add_of_le' hle
    exact .object distinct fun m hm => ih m hm (Nat.le_add_left _ _)

mutual

/-- The tokens of a value. -/
def tokens : Json → List Token
  | list [] => [.openList, .closeList]
  | list (v :: vs) => .openList :: (tokens v ++ (itemTokens vs ++ [.closeList]))
  | object [] => [.openObject, .closeObject]
  | object ((k, v) :: rest) =>
    .openObject :: .scalar (text k) :: .colon :: (tokens v ++ (memberTokens rest ++ [.closeObject]))
  | v => [.scalar v]

/-- The tokens of the items after the first. -/
def itemTokens : List Json → List Token
  | [] => []
  | v :: vs => .comma :: (tokens v ++ itemTokens vs)

/-- The tokens of the members after the first. -/
def memberTokens : List (String × Json) → List Token
  | [] => []
  | (k, v) :: rest => .comma :: .scalar (text k) :: .colon :: (tokens v ++ memberTokens rest)

end

variable {v : Json} {vs : List Json} {members : List (String × Json)} {c : Char}
  {cs rest written : List Char} {t : Token} {ts : List Token} {depth : Nat}

/-! ### From text to tokens -/

/-- Plain characters that are read as some tokens. -/
inductive Spells : List Char → List Token → Prop
  | nil : Spells [] []
  | space {c : Char} {rest : List Char} {ts : List Token} (hc : isSpace c = true)
      (plain : Text.IsPlain c) (h : Spells rest ts) : Spells (c :: rest) ts
  | token {written rest : List Char} {t : Token} {ts : List Token} (ht : TokenAt written t rest)
      (h : Spells rest ts) : Spells (written ++ rest) (t :: ts)

theorem Spells.isPlain (h : Spells cs ts) : ∀ c ∈ cs, Text.IsPlain c := by
  induction h with
  | nil => simp
  | space _ plain _ ih => exact List.forall_mem_cons.2 ⟨plain, ih⟩
  | token ht _ ih => exact List.forall_mem_append.2 ⟨ht.plain, ih⟩

theorem Spells.tokens? (h : Spells cs ts) {steps : Nat} (hsteps : cs.length < steps) :
    tokens? .standard steps cs = some ts := by
  induction h generalizing steps with
  | nil =>
    obtain ⟨steps, rfl⟩ : ∃ n, steps = n + 1 := ⟨steps - 1, by omega⟩
    rfl
  | @space c rest ts hc _ _ ih =>
    obtain ⟨steps, rfl⟩ : ∃ n, steps = n + 1 := ⟨steps - 1, by omega⟩
    unfold Json.tokens?
    rw [if_pos hc]
    exact ih (Nat.lt_of_succ_lt_succ hsteps)
  | @token written rest t ts ht _ ih =>
    obtain ⟨steps, rfl⟩ : ∃ n, steps = n + 1 := ⟨steps - 1, by omega⟩
    obtain ⟨c, cs, rfl, hspace, hread⟩ := ht.read
    rw [List.length_append, List.length_cons] at hsteps
    rw [List.cons_append]
    unfold Json.tokens?
    rw [hspace, hread, if_neg Bool.false_ne_true]
    dsimp only
    rw [ih (by omega)]
    rfl

theorem Spells.mark (hc : isSpace c = false) (hplain : Text.IsPlain c) (ht : mark? c = some t)
    (h : Spells rest ts) : Spells (c :: rest) (t :: ts) :=
  .token (tokenAt_mark hc hplain ht rest) h

theorem Spells.newline (depth : Nat) (h : Spells rest ts) :
    Spells ((newline depth).toList ++ rest) ts := by
  have hblanks (n : Nat) : Spells (List.replicate n ' ' ++ rest) ts := by
    induction n with
    | zero => exact h
    | succ n ih => exact .space rfl (by decide) ih
  rw [Json.newline, String.toList_ofList]
  exact .space rfl (by decide) (hblanks _)

/-- No number goes on in a line break. -/
theorem endsNumber_newline (depth : Nat) (rest : List Char) :
    EndsNumber ((newline depth).toList ++ rest) := by
  rw [newline, String.toList_ofList]
  rintro c ⟨⟩
  decide

/-- A name, the colon and the blank after it. -/
theorem Spells.name (k : String) (h : Spells rest ts) :
    Spells ((string true k).toList ++ ':' :: ' ' :: rest) (.scalar (text k) :: .colon :: ts) := by
  have hcolon : Spells (':' :: ' ' :: rest) (.colon :: ts) :=
    .mark rfl (by decide) rfl (.space rfl (by decide) h)
  exact .token (tokenAt_string true k _) hcolon

/-- What is written of a value is read as its tokens, at any depth and before any text that does not
go on with a number. -/
def IsSpelled (v : Json) : Prop :=
  ∀ (depth : Nat) {rest : List Char} {ts : List Token}, EndsNumber rest → Spells rest ts →
    Spells ((indentedAt depth v).toList ++ rest) (tokens v ++ ts)

/-! The characters of what is written, part by part. -/

theorem indentedItems_cons (depth : Nat) (v : Json) (vs : List Json) (rest : List Char) :
    (indentedItems depth (v :: vs)).toList ++ rest = ',' :: ((newline depth).toList ++
      ((indentedAt depth v).toList ++ ((indentedItems depth vs).toList ++ rest))) := by
  rw [indentedItems]
  simp only [String.toList_append, List.append_assoc]
  rfl

theorem indentedMembers_cons (depth : Nat) (k : String) (v : Json) (members : List (String × Json))
    (rest : List Char) : (indentedMembers depth ((k, v) :: members)).toList ++ rest =
      ',' :: ((newline depth).toList ++ ((string true k).toList ++ ':' :: ' ' ::
        ((indentedAt depth v).toList ++ ((indentedMembers depth members).toList ++ rest)))) := by
  rw [indentedMembers]
  simp only [String.toList_append, List.append_assoc]
  rfl

theorem indentedAt_list (depth : Nat) (v : Json) (vs : List Json) (rest : List Char) :
    (indentedAt depth (.list (v :: vs))).toList ++ rest = '[' :: ((newline (depth + 1)).toList ++
      ((indentedAt (depth + 1) v).toList ++ ((indentedItems (depth + 1) vs).toList ++
        ((newline depth).toList ++ ']' :: rest)))) := by
  rw [indentedAt]
  simp only [String.toList_append, List.append_assoc]
  rfl

theorem indentedAt_object (depth : Nat) (k : String) (v : Json) (members : List (String × Json))
    (rest : List Char) : (indentedAt depth (.object ((k, v) :: members))).toList ++ rest =
      Char.ofNat 0x7b :: ((newline (depth + 1)).toList ++ ((string true k).toList ++ ':' :: ' ' ::
        ((indentedAt (depth + 1) v).toList ++ ((indentedMembers (depth + 1) members).toList ++
          ((newline depth).toList ++ Char.ofNat 0x7d :: rest))))) := by
  rw [indentedAt]
  simp only [String.toList_append, List.append_assoc]
  rfl

/-- No number goes on in further items. -/
theorem endsNumber_indentedItems (depth : Nat) (vs : List Json) (hrest : EndsNumber rest) :
    EndsNumber ((indentedItems depth vs).toList ++ rest) := by
  cases vs with
  | nil => exact hrest
  | cons v vs =>
    rw [indentedItems_cons]
    rintro c ⟨⟩
    decide

theorem endsNumber_indentedMembers (depth : Nat) (members : List (String × Json))
    (hrest : EndsNumber rest) : EndsNumber ((indentedMembers depth members).toList ++ rest) := by
  cases members with
  | nil => exact hrest
  | cons m members =>
    rw [indentedMembers_cons]
    rintro c ⟨⟩
    decide

theorem spells_indentedItems (hvs : ∀ v ∈ vs, IsSpelled v) (depth : Nat) (hrest : EndsNumber rest)
    (h : Spells rest ts) : Spells ((indentedItems depth vs).toList ++ rest) (itemTokens vs ++ ts) := by
  induction vs with
  | nil => exact h
  | cons v vs ih =>
    obtain ⟨hv, hvs⟩ := List.forall_mem_cons.1 hvs
    rw [indentedItems_cons, itemTokens, List.cons_append, List.append_assoc]
    refine .mark rfl (by decide) rfl (.newline depth ?_)
    exact hv depth (endsNumber_indentedItems depth vs hrest) (ih hvs)

theorem spells_indentedMembers (hmembers : ∀ m ∈ members, IsSpelled m.2) (depth : Nat)
    (hrest : EndsNumber rest) (h : Spells rest ts) :
    Spells ((indentedMembers depth members).toList ++ rest) (memberTokens members ++ ts) := by
  induction members with
  | nil => exact h
  | cons m members ih =>
    obtain ⟨k, v⟩ := m
    obtain ⟨hv, hmembers⟩ := List.forall_mem_cons.1 hmembers
    rw [indentedMembers_cons, memberTokens]
    simp only [List.cons_append, List.append_assoc]
    refine .mark rfl (by decide) rfl (.newline depth (.name k ?_))
    exact hv depth (endsNumber_indentedMembers depth members hrest) (ih hmembers)

/-- **What is written of a value** is read as its tokens. -/
theorem isSpelled_of_plain (h : Plain depth v) : IsSpelled v := by
  induction h with
  | null => exact fun _ _ _ _ h => .token (tokenAt_null _) h
  | bool _ b => exact fun _ _ _ _ h => .token (tokenAt_bool b _) h
  | int _ small => exact fun _ _ _ hrest h => .token (tokenAt_int small hrest) h
  | text _ s => exact fun _ _ _ _ h => .token (tokenAt_string true s _) h
  | @list _ items _ ih =>
    intro depth rest ts _ h
    have hend : Spells (']' :: rest) (.closeList :: ts) := .mark rfl (by decide) rfl h
    cases items with
    | nil =>
      rw [indentedAt, tokens]
      show Spells ('[' :: ']' :: rest) (.openList :: .closeList :: ts)
      exact .mark rfl (by decide) rfl hend
    | cons v vs =>
      obtain ⟨hv, hvs⟩ := List.forall_mem_cons.1 ih
      have hbreak := endsNumber_newline depth (']' :: rest)
      rw [indentedAt_list, tokens]
      simp only [List.cons_append, List.append_assoc, List.nil_append]
      refine .mark rfl (by decide) rfl (.newline (depth + 1) ?_)
      refine hv (depth + 1) (endsNumber_indentedItems _ vs hbreak) ?_
      exact spells_indentedItems hvs (depth + 1) hbreak (.newline depth hend)
  | @object _ members _ _ ih =>
    intro depth rest ts _ h
    have hend : Spells (Char.ofNat 0x7d :: rest) (.closeObject :: ts) := .mark rfl (by decide) rfl h
    cases members with
    | nil =>
      rw [indentedAt, tokens]
      show Spells (Char.ofNat 0x7b :: Char.ofNat 0x7d :: rest) (.openObject :: .closeObject :: ts)
      exact .mark rfl (by decide) rfl hend
    | cons m members =>
      obtain ⟨k, v⟩ := m
      obtain ⟨hv, hmembers⟩ := List.forall_mem_cons.1 ih
      have hbreak := endsNumber_newline depth (Char.ofNat 0x7d :: rest)
      rw [indentedAt_object, tokens]
      simp only [List.cons_append, List.append_assoc, List.nil_append]
      refine .mark rfl (by decide) rfl (.newline (depth + 1) (.name k ?_))
      refine hv (depth + 1) (endsNumber_indentedMembers _ members hbreak) ?_
      exact spells_indentedMembers hmembers (depth + 1) hbreak (.newline depth hend)

/-! ### From tokens to the value -/

variable {frames outer : List Frame} {done : List Json} {read : Catalog String Json}

/-- The tokens of a value make the parser deliver it, wherever a value may stand that is nested no
deeper than a number says. -/
def IsParsed (depth : Nat) (v : Json) : Prop :=
  ∀ (frames : List Frame) (endAllowed : Bool) (ts : List Token), frames.length + depth ≤ 1024 →
    State.run .standard ⟨frames, .value endAllowed⟩ (tokens v ++ ts) =
      State.run .standard (State.deliver frames v) ts

theorem State.run_cons {s s' : State} (h : s.step .standard t = some s') (ts : List Token) :
    s.run .standard (t :: ts) = s'.run .standard ts := by
  rw [State.run, h, Option.bind_some]

theorem State.push_standard {f : Frame} {mode : Mode} (h : frames.length + 1 ≤ 1024) :
    State.push .standard frames f mode = some ⟨f :: frames, mode⟩ :=
  if_neg (Nat.not_lt.2 h)

theorem run_itemTokens (hvs : ∀ v ∈ vs, IsParsed depth v) (houter : outer.length + 1 + depth ≤ 1024)
    (done : List Json) (ts : List Token) :
    State.run .standard ⟨.items done :: outer, .next⟩ (itemTokens vs ++ ts) =
      State.run .standard ⟨.items (vs.reverse ++ done) :: outer, .next⟩ ts := by
  induction vs generalizing done with
  | nil => rfl
  | cons v vs ih =>
    obtain ⟨hv, hvs⟩ := List.forall_mem_cons.1 hvs
    have hcomma : (State.mk (.items done :: outer) .next).step .standard .comma =
        some ⟨.items done :: outer, .value false⟩ := rfl
    rw [itemTokens, List.cons_append, List.append_assoc, State.run_cons hcomma,
      hv (.items done :: outer) false _ houter, List.reverse_cons, List.append_assoc]
    exact ih hvs (v :: done)

/-- A member of a new name goes to the end of the object. -/
theorem run_member {k : String} (hv : IsParsed depth v) (houter : outer.length + 1 + depth ≤ 1024)
    (hnew : k ∉ read.keys) (last : String) (endAllowed : Bool) (ts : List Token) :
    State.run .standard ⟨.members read last :: outer, .name endAllowed⟩
        (.scalar (text k) :: .colon :: (tokens v ++ ts)) =
      State.run .standard ⟨.members (read ++ [(k, v)]) k :: outer, .next⟩ ts := by
  have hname : (State.mk (.members read last :: outer) (.name endAllowed)).step .standard
      (.scalar (text k)) = some ⟨.members read k :: outer, .colon⟩ := rfl
  have hcolon : (State.mk (.members read k :: outer) .colon).step .standard .colon =
      some ⟨.members read k :: outer, .value false⟩ := rfl
  have hput : read.put k v = read ++ [(k, v)] := by
    refine Catalog.put_of_find?_eq_none ?_ v
    rw [← Option.not_isSome_iff_eq_none, Catalog.find?_isSome_iff]
    exact hnew
  rw [State.run_cons hname, State.run_cons hcolon, hv (.members read k :: outer) false _ houter,
    State.deliver, hput]

theorem run_memberTokens (hmembers : ∀ m ∈ members, IsParsed depth m.2)
    (houter : outer.length + 1 + depth ≤ 1024) (read : Catalog String Json)
    (hkeys : (Catalog.keys (read ++ members)).Nodup) (last : String) (ts : List Token) :
    ∃ last', State.run .standard ⟨.members read last :: outer, .next⟩ (memberTokens members ++ ts) =
      State.run .standard ⟨.members (read ++ members) last' :: outer, .next⟩ ts := by
  induction members generalizing read last with
  | nil => exact ⟨last, by rw [List.append_nil]; rfl⟩
  | cons m members ih =>
    obtain ⟨k, v⟩ := m
    obtain ⟨hv, hmembers⟩ := List.forall_mem_cons.1 hmembers
    have hcomma : (State.mk (.members read last :: outer) .next).step .standard .comma =
        some ⟨.members read last :: outer, .name false⟩ := rfl
    have hnew : k ∉ read.keys := by
      intro hk
      rw [Catalog.keys, List.map_append, List.nodup_append] at hkeys
      exact hkeys.2.2 k hk k List.mem_cons_self rfl
    rw [List.append_cons] at hkeys
    obtain ⟨last', hrun⟩ := ih hmembers (read ++ [(k, v)]) hkeys k
    refine ⟨last', ?_⟩
    rw [memberTokens]
    simp only [List.cons_append, List.append_assoc]
    rw [State.run_cons hcomma, run_member hv houter hnew, hrun, List.append_assoc, List.singleton_append]

/-- **The tokens of a value** make the parser deliver it. -/
theorem isParsed_of_plain (h : Plain depth v) : IsParsed depth v := by
  induction h with
  | null => exact fun _ _ _ _ => rfl
  | bool => exact fun _ _ _ _ => rfl
  | int => exact fun _ _ _ _ => rfl
  | text => exact fun _ _ _ _ => rfl
  | @list depth items _ ih =>
    intro frames endAllowed ts hdepth
    have hroom : frames.length + 1 ≤ 1024 := by omega
    have hopen : (State.mk frames (.value endAllowed)).step .standard .openList =
        some ⟨.items [] :: frames, .value true⟩ := State.push_standard hroom
    cases items with
    | nil =>
      rw [tokens, List.cons_append, State.run_cons hopen]
      rfl
    | cons v vs =>
      obtain ⟨hv, hvs⟩ := List.forall_mem_cons.1 ih
      have houter : frames.length + 1 + depth ≤ 1024 := by omega
      have hclose : (State.mk (.items (vs.reverse ++ [v]) :: frames) .next).step .standard .closeList =
          some (State.deliver frames (.list (v :: vs))) := by
        show some (State.deliver frames (.list (vs.reverse ++ [v]).reverse)) = _
        rw [List.reverse_append, List.reverse_reverse]
        rfl
      rw [tokens]
      simp only [List.cons_append, List.append_assoc, List.nil_append]
      rw [State.run_cons hopen, hv (.items [] :: frames) true _ houter, State.deliver,
        run_itemTokens hvs houter, State.run_cons hclose]
  | @object depth members distinct _ ih =>
    intro frames endAllowed ts hdepth
    have hroom : frames.length + 1 ≤ 1024 := by omega
    have hopen : (State.mk frames (.value endAllowed)).step .standard .openObject =
        some ⟨.members [] "" :: frames, .name true⟩ := State.push_standard hroom
    cases members with
    | nil =>
      rw [tokens, List.cons_append, State.run_cons hopen]
      rfl
    | cons m members =>
      obtain ⟨k, v⟩ := m
      obtain ⟨hv, hmembers⟩ := List.forall_mem_cons.1 ih
      have houter : frames.length + 1 + depth ≤ 1024 := by omega
      have hclose (last : String) : (State.mk (.members ((k, v) :: members) last :: frames) .next).step
          .standard .closeObject = some (State.deliver frames (.object ((k, v) :: members))) := rfl
      obtain ⟨last, hrun⟩ := run_memberTokens hmembers houter [(k, v)] distinct k (.closeObject :: ts)
      rw [tokens]
      simp only [List.cons_append, List.append_assoc, List.nil_append]
      rw [State.run_cons hopen, run_member hv houter List.not_mem_nil, List.nil_append, hrun,
        List.singleton_append, State.run_cons (hclose last)]

/-! ### Back again -/

theorem spells_indented (h : Plain depth v) : Spells v.indented.toList (tokens v) := by
  have hspells := isSpelled_of_plain h 0 (fun _ hc => by cases hc) .nil
  rw [List.append_nil, List.append_nil] at hspells
  exact hspells

/-- A text that spells the tokens of a value is read as that value. -/
theorem parse?_of_spells {s : String} (h : Plain 1024 v) (hs : Spells s.toList (tokens v)) :
    parse? .standard s = some v := by
  have hrun := isParsed_of_plain h [] false [] (by decide)
  rw [List.append_nil] at hrun
  unfold parse? parseChars?
  rw [hs.tokens? (Nat.lt_succ_self _), Option.bind_some]
  unfold ofTokens? State.start
  rw [hrun]
  rfl

/-- **What is written of a value** is read back as that value. -/
theorem parse?_indented (h : Plain 1024 v) : parse? .standard v.indented = some v :=
  parse?_of_spells h (spells_indented h)

end Json

/-- **A file** gives back the value that was written to it. -/
theorem FileState.json?_indented {v : Json} (h : v.Plain 1024) : (ofText v.indented).json? = some v := by
  rw [json?_ofText (Text.wholeText?_utf8Bytes (Json.spells_indented h).isPlain), Json.parse?_indented h]

end UsageLedger
