/-
UsageLedger/Text/Lines.lean

Text files.  A line ends with a line feed, a carriage return, or the two
together; the end of the file ends a last line that has no such mark.  A file
is read whole, or line by line in blocks; in the second case the lines before
an undecodable block are still seen.
-/
import UsageLedger.Text.Utf8

namespace UsageLedger.Text

/-- Every line end as a single line feed. -/
def unifyLineEnds : List Char → List Char
  | '\r' :: '\n' :: rest => '\n' :: unifyLineEnds rest
  | '\r' :: rest => '\n' :: unifyLineEnds rest
  | c :: rest => c :: unifyLineEnds rest
  | [] => []

/-- Splits after each line feed.  The result is the finished lines, without their ends, and what
follows the last of them. -/
def splitLines : List Char → List (List Char) × List Char
  | [] => ([], [])
  | c :: rest =>
    let (lines, last) := splitLines rest
    if c == '\n' then ([] :: lines, last)
    else
      match lines with
      | [] => ([], c :: last)
      | line :: more => ((c :: line) :: more, last)

/-- The size of the blocks that a file is read in. -/
def blockSize : Nat := 8192

/-- A file as it is read line by line. -/
structure LineSource where
  lines : List String
  /-- Whether an undecodable byte sequence follows the lines. -/
  broken : Bool

/-- The lines of a file.  When the file is broken, a carriage return at the very end of what could
be decoded does not end a line yet, for its line feed might have followed. -/
def LineSource.ofBytes (bytes : List UInt8) : LineSource :=
  let (chars, broken) := readBlocks [] (blocks blockSize bytes)
  let chars := if broken && chars.getLast? == some '\r' then chars.dropLast else chars
  let (lines, last) := splitLines (unifyLineEnds chars)
  let lines := if broken || last.isEmpty then lines else lines ++ [last]
  ⟨lines.map String.ofList, broken⟩

/-- The whole text of a file, with line ends unified, if it can be decoded. -/
def wholeText? (bytes : List UInt8) : Option (List Char) := (utf8? bytes).map unifyLineEnds

end UsageLedger.Text
