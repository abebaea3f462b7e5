/-
UsageLedger/Text/Utf8.lean

Reading UTF-8.  `nextChar` takes one character off the front of a list of bytes
and tells an ill-formed sequence from one that only lacks its end.  On it rest
the strict reading of a whole text, the lenient reading that puts the
replacement character in place of ill-formed sequences, and the reading of a
file block by block, which stops at the first block where an ill-formed
sequence shows.
-/
import UsageLedger.Arithmetic

namespace UsageLedger.Text

/-- What the front of a list of bytes holds. -/
inductive Utf8Front
  /-- A character and the bytes after it. -/
  | char (c : Char) (rest : List UInt8)
  /-- An ill-formed sequence and the bytes after it. -/
  | illFormed (rest : List UInt8)
  /-- The beginning of a sequence whose end is missing. -/
  | unfinished
  /-- Nothing. -/
  | done

/-- Whether a byte continues a sequence. -/
def isContinuation (b : UInt8) : Bool := 0x80 ≤ b && b ≤ 0xbf

/-- The payload of a continuation byte. -/
def payload (b : UInt8) : Nat := b.toNat % 64

/-- The bytes that may follow a leading byte: the second byte is confined further than the others,
so that no character has two spellings, no surrogate is read and the code space is not exceeded. -/
def secondRange (lead : UInt8) : UInt8 × UInt8 :=
  if lead == 0xe0 then (0xa0, 0xbf)
  else if lead == 0xed then (0x80, 0x9f)
  else if lead == 0xf0 then (0x90, 0xbf)
  else if lead == 0xf4 then (0x80, 0x8f)
  else (0x80, 0xbf)

/-- How many bytes follow a leading byte, if it may lead. -/
def continuationCount (lead : UInt8) : Option Nat :=
  if lead < 0x80 then some 0
  else if 0xc2 ≤ lead && lead ≤ 0xdf then some 1
  else if 0xe0 ≤ lead && lead ≤ 0xef then some 2
  else if 0xf0 ≤ lead && lead ≤ 0xf4 then some 3
  else none

/-- Reads the remaining `count` continuation bytes onto a value. -/
def continueChar : Nat → Nat → List UInt8 → Utf8Front
  | 0, value, rest => .char (Char.ofNat value) rest
  | _ + 1, _, [] => .unfinished
  | count + 1, value, b :: rest =>
    if isContinuation b then continueChar count (value * 64 + payload b) rest
    else .illFormed (b :: rest)

/-- The front of a list of bytes. -/
def nextChar : List UInt8 → Utf8Front
  | [] => .done
  | lead :: rest =>
    match continuationCount lead with
    | none => .illFormed rest
    | some 0 => .char (Char.ofNat lead.toNat) rest
    | some (count + 1) =>
      match rest with
      | [] => .unfinished
      | b :: rest' =>
        let range := secondRange lead
        if range.1 ≤ b && b ≤ range.2 then
          continueChar count ((lead.toNat % 2 ^ (5 - count)) * 64 + payload b) rest'
        else .illFormed (b :: rest')

/-- What strict reading of some bytes gives: the characters before the first fault, and the bytes
from the fault on together with the fault's kind. -/
structure Utf8Reading where
  chars : List Char
  /-- The bytes of a sequence that lacks its end. -/
  pending : List UInt8
  illFormed : Bool

/-- Reads as many characters as the bytes hold.  The first argument bounds the number of steps; the
number of bytes is always enough, for every step takes a byte. -/
def readChars : Nat → List UInt8 → Utf8Reading
  | 0, bytes => ⟨[], bytes, false⟩
  | steps + 1, bytes =>
    match nextChar bytes with
    | .done => ⟨[], [], false⟩
    | .unfinished => ⟨[], bytes, false⟩
    | .illFormed _ => ⟨[], [], true⟩
    | .char c rest =>
      let r := readChars steps rest
      ⟨c :: r.chars, r.pending, r.illFormed⟩

/-- The text of some bytes, if they are well formed throughout. -/
def utf8? (bytes : List UInt8) : Option (List Char) :=
  let r := readChars (bytes.length + 1) bytes
  if r.illFormed || !r.pending.isEmpty then none else some r.chars

/-- The text of some bytes, with the replacement character for each ill-formed sequence. -/
def utf8Lossy (bytes : List UInt8) : List Char :=
  go (bytes.length + 1) bytes
where
  /-- Reads on, at most as many characters as the first argument says. -/
  go : Nat → List UInt8 → List Char
    | 0, _ => []
    | steps + 1, bytes =>
      match nextChar bytes with
      | .done => []
      | .unfinished => [Char.ofNat 0xfffd]
      | .illFormed rest => Char.ofNat 0xfffd :: go steps rest
      | .char c rest => c :: go steps rest

/-- The bytes of a text. -/
def utf8Bytes (s : String) : List UInt8 := s.toUTF8.toList

/-- The blocks of at most `size` bytes that a file is read in. -/
def blocks (size : Nat) (bytes : List UInt8) : List (List UInt8) :=
  go (bytes.length + 1) bytes
where
  /-- Cuts off blocks, at most as many as the first argument says. -/
  go : Nat → List UInt8 → List (List UInt8)
    | 0, _ => []
    | _, [] => []
    | steps + 1, bytes => bytes.take size :: go steps (bytes.drop size)

/-- The characters that come to light before reading fails, and whether it fails.  A sequence that
an end of block interrupts is continued in the next block; one that the end of the file interrupts
is ill-formed, but this shows only after all blocks. -/
def readBlocks : List UInt8 → List (List UInt8) → List Char × Bool
  | pending, [] => ([], !pending.isEmpty)
  | pending, block :: rest =>
    let bytes := pending ++ block
    let r := readChars (bytes.length + 1) bytes
    if r.illFormed then ([], true)
    else
      let (chars, failed) := readBlocks r.pending rest
      (r.chars ++ chars, failed)

end UsageLedger.Text
