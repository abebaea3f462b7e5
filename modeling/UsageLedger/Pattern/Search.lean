/-
UsageLedger/Pattern/Search.lean

Searching a text for a match.  Matching goes on from a place with a continuation
that says whether the rest of the pattern matches too; where it does not, the
next way is tried.  A repetition does not begin another optional round at the
place where the last one began, so it ends.
-/
import UsageLedger.Pattern.Basic

namespace UsageLedger.Pattern

/-- How far matching has come. -/
structure Spot where
  /-- The number of characters matched or passed over. -/
  place : Nat
  /-- Where the remembered groups begin and end, latest first. -/
  groups : List (Nat × Nat × Nat)

/-- Goes on from a spot: where the part that comes next ends, the continuation is asked. -/
abbrev Matcher := Spot → (Spot → Option Spot) → Option Spot

/-- Whether a word character stands at a place. -/
def wordAt (ascii : Bool) (text : Array Char) (place : Nat) : Bool :=
  text[place]?.any (Category.word.holds ascii)

/-- Whether a word begins or ends at a place. -/
def isBoundary (ascii : Bool) (text : Array Char) (place : Nat) : Bool :=
  (0 < place && wordAt ascii text (place - 1)) != wordAt ascii text place

/-- Whether an anchor holds at a place.  In an empty text there are neither boundaries nor places
that are none. -/
def Anchor.holds (text : Array Char) (place : Nat) : Anchor → Bool
  | textStart => place == 0
  | lineStart => place == 0 || text[place - 1]? == some '\n'
  | textEnd => place == text.size
  | lastEnd => place == text.size || (place + 1 == text.size && text[place]? == some '\n')
  | lineEnd => place == text.size || text[place]? == some '\n'
  | boundary ascii => !text.isEmpty && isBoundary ascii text place
  | notBoundary ascii => !text.isEmpty && !isBoundary ascii text place

/-- The first of two ways, or else the second one. -/
def orTry (first : Option Spot) (second : Unit → Option Spot) : Option Spot :=
  match first with
  | some s => some s
  | none => second ()

/-- Whether one more optional round may begin. -/
def mayRepeat (most : Option Nat) (rounds : Nat) (last : Option Nat) (s : Spot) : Bool :=
  most.all (rounds < ·) && last != some s.place

/-- Repeats, most rounds first.  The first number bounds the steps. -/
def greedily (round : Matcher) (least : Nat) (most : Option Nat) (k : Spot → Option Spot) :
    Nat → Nat → Option Nat → Spot → Option Spot
  | 0, _, _, _ => none
  | steps + 1, rounds, last, s =>
    if rounds < least then round s (greedily round least most k steps (rounds + 1) last)
    else
      orTry
        (if mayRepeat most rounds last s then
          round s (greedily round least most k steps (rounds + 1) (some s.place))
        else none)
        fun _ => k s

/-- Repeats, fewest rounds first.  The first number bounds the steps. -/
def lazily (round : Matcher) (least : Nat) (most : Option Nat) (k : Spot → Option Spot) :
    Nat → Nat → Option Nat → Spot → Option Spot
  | 0, _, _, _ => none
  | steps + 1, rounds, last, s =>
    if rounds < least then round s (lazily round least most k steps (rounds + 1) last)
    else
      orTry (k s) fun _ =>
        if mayRepeat most rounds last s then
          round s (lazily round least most k steps (rounds + 1) (some s.place))
        else none

/-- Repeats as often as possible, each round in the first way that matches.  The first number bounds
the steps. -/
def possessively (round : Matcher) (least : Nat) (most : Option Nat) :
    Nat → Nat → Option Nat → Spot → Option Spot
  | 0, _, _, _ => none
  | steps + 1, rounds, last, s =>
    if rounds < least then
      match round s some with
      | some s => possessively round least most steps (rounds + 1) last s
      | none => none
    else if mayRepeat most rounds last s then
      match round s some with
      | some next => possessively round least most steps (rounds + 1) (some s.place) next
      | none => some s
    else some s

/-- Whether the text goes on with some characters. -/
def goesOn (same : Char → Char → Bool) (text : Array Char) (place : Nat) : List Char → Bool
  | [] => true
  | c :: rest => text[place]?.any (same c) && goesOn same text (place + 1) rest

/-- The part of the text that a group matched. -/
def remembered (text : Array Char) (s : Spot) (number : Nat) : Option (List Char) :=
  (s.groups.lookup number).map fun (first, last) => (text.extract first last).toList

/-- Matches a pattern. -/
def run (text : Array Char) : Pattern → Matcher
  | empty, s, k => k s
  | char set, s, k =>
    if text[s.place]?.any set.holds then k { s with place := s.place + 1 } else none
  | anchor a, s, k => if a.holds text s.place then k s else none
  | cat p q, s, k => run text p s fun s => run text q s k
  | either p q, s, k => orTry (run text p s k) fun _ => run text q s k
  | group none p, s, k => run text p s k
  | group (some number) p, s, k =>
    run text p s fun e => k { e with groups := (number, s.place, e.place) :: e.groups }
  | again number ignoreCase ascii, s, k =>
    let same (a b : Char) : Bool :=
      if ignoreCase then folded ascii a == folded ascii b else a == b
    match remembered text s number with
    | some cs => if goesOn same text s.place cs then k { s with place := s.place + cs.length } else none
    | none => none
  | loop least most mood p, s, k =>
    let steps := least + text.size + 3
    match mood with
    | .greedy => greedily (run text p) least most k steps 0 none s
    | .lazy => lazily (run text p) least most k steps 0 none s
    | .possessive => (possessively (run text p) least most steps 0 none s).bind k
  | atomic p, s, k => (run text p s some).bind k
  | ahead negated p, s, k =>
    match run text p s some with
    | some e => if negated then none else k { e with place := s.place }
    | none => if negated then k s else none
  | behind negated width p, s, k =>
    let found := if s.place < width then none else run text p { s with place := s.place - width } some
    match found with
    | some e => if negated then none else k { e with place := s.place }
    | none => if negated then k s else none
  | given number p q, s, k =>
    if (s.groups.lookup number).isSome then run text p s k else run text q s k

/-- Whether a pattern matches anywhere in a text. -/
def found (p : Pattern) (s : String) : Bool :=
  let text := s.toList.toArray
  (List.range (text.size + 1)).any fun place => (run text p ⟨place, []⟩ some).isSome

end UsageLedger.Pattern
