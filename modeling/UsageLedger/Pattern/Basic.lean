/-
UsageLedger/Pattern/Basic.lean

Regular expressions, and how many characters they match.  Beyond the classical
operators there are groups that are remembered and referred to, assertions about
what stands before or after, and repetitions in three moods.
-/
import UsageLedger.Arithmetic
import UsageLedger.Pattern.CharSet

namespace UsageLedger

namespace Pattern

/-- A condition on a place between two characters. -/
inductive Anchor
  | textStart
  | lineStart
  | textEnd
  /-- The end of the text, or the place before a line feed that ends it. -/
  | lastEnd
  | lineEnd
  | boundary (ascii : Bool)
  | notBoundary (ascii : Bool)
  deriving DecidableEq, Repr

/-- How a repetition tries the numbers of rounds. -/
inductive Mood
  /-- Most rounds first. -/
  | greedy
  /-- Fewest rounds first. -/
  | lazy
  /-- Most rounds, and no fewer afterwards. -/
  | possessive
  deriving DecidableEq, Repr

end Pattern

open Pattern in
/-- A regular expression. -/
inductive Pattern
  | empty
  | char (s : CharSet)
  | anchor (a : Anchor)
  | cat (p q : Pattern)
  | either (p q : Pattern)
  /-- A part that counts as one; with a number it is remembered. -/
  | group (number : Option Nat) (p : Pattern)
  /-- What a group matched, once more. -/
  | again (number : Nat) (ignoreCase ascii : Bool)
  | loop (least : Nat) (most : Option Nat) (mood : Mood) (p : Pattern)
  /-- A part that is not tried another way. -/
  | atomic (p : Pattern)
  /-- What follows matches a part, or does not. -/
  | ahead (negated : Bool) (p : Pattern)
  /-- What stands before matches a part of the given width, or does not. -/
  | behind (negated : Bool) (width : Nat) (p : Pattern)
  /-- One of two parts, by whether a group has matched. -/
  | given (number : Nat) (p q : Pattern)
  deriving Repr

namespace Pattern

/-- Parts one after another. -/
def sequence (ps : List Pattern) : Pattern := ps.foldr cat empty

/-- One of several parts. -/
def choice : List Pattern → Pattern
  | [] => empty
  | [p] => p
  | p :: rest => either p (choice rest)

/-- The least and the greatest number of characters that a part matches. -/
structure Width where
  least : Nat
  greatest : Nat
  deriving DecidableEq, Repr

/-- Widths are not told apart from here on. -/
def Width.unbounded : Nat := 2 ^ 64

/-- A width with both numbers limited. -/
def Width.limit (w : Width) : Width := ⟨min w.least unbounded, min w.greatest unbounded⟩

/-- The width of a pattern, given those of the groups that it refers to. -/
def width (groups : Nat → Width) : Pattern → Width
  | empty => ⟨0, 0⟩
  | char _ => ⟨1, 1⟩
  | anchor _ => ⟨0, 0⟩
  | cat p q =>
    let v := width groups p
    let w := width groups q
    Width.limit ⟨v.least + w.least, v.greatest + w.greatest⟩
  | either p q =>
    let v := width groups p
    let w := width groups q
    ⟨min v.least w.least, max v.greatest w.greatest⟩
  | group _ p => width groups p
  | again n _ _ => groups n
  | loop least most _ p =>
    let w := width groups p
    Width.limit
      ⟨w.least * least,
        match most with
        | some most => w.greatest * most
        | none => if w.greatest = 0 then 0 else Width.unbounded⟩
  | atomic p => width groups p
  | ahead _ _ => ⟨0, 0⟩
  | behind _ _ _ => ⟨0, 0⟩
  | given _ p q =>
    let v := width groups p
    let w := width groups q
    ⟨min v.least w.least, max v.greatest w.greatest⟩

/-- How deep the parts of a pattern are.  Parts one after another, and those of one choice, are all
equally deep; what is grouped and not remembered is no part of its own. -/
def levels : Pattern → Nat
  | cat p q => max (levels p) (levels q)
  | either p q =>
    max (1 + levels p)
      (match q with
        | either _ _ => levels q
        | _ => 1 + levels q)
  | group number p => if number.isSome then 1 + levels p else levels p
  | loop _ _ _ p => 1 + levels p
  | atomic p => 1 + levels p
  | ahead _ p => 1 + levels p
  | behind _ _ p => 1 + levels p
  | given _ p q => 1 + max (levels p) (levels q)
  | _ => 0

/-- Whether there is a repetition anywhere in a pattern. -/
def hasLoop : Pattern → Bool
  | loop .. => true
  | cat p q => hasLoop p || hasLoop q
  | either p q => hasLoop p || hasLoop q
  | group _ p => hasLoop p
  | atomic p => hasLoop p
  | ahead _ p => hasLoop p
  | behind _ _ p => hasLoop p
  | given _ p q => hasLoop p || hasLoop q
  | _ => false

end Pattern

end UsageLedger
