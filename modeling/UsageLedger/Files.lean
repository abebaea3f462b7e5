/-
UsageLedger/Files.lean

What a file system shows of a file: nothing, a directory, or the bytes of a
file.  A program is handed these states instead of reading files itself.
-/
import UsageLedger.Json.Parser
import UsageLedger.Text.Lines

namespace UsageLedger

/-- What stands at a place in the file system. -/
inductive FileState
  | missing
  | directory
  | bytes (content : List UInt8)
  deriving Inhabited

namespace FileState

/-- The file with a text as its content. -/
def ofText (s : String) : FileState := bytes (Text.utf8Bytes s)

/-- Whether anything stands there. -/
def isPresent : FileState → Bool
  | missing => false
  | _ => true

/-- The JSON value that the file holds, if it can be read and decoded. -/
def json? : FileState → Option Json
  | bytes content => (Text.wholeText? content).bind (Json.parseChars? .standard)
  | _ => none

/-- A text that is read as it was written holds what its characters spell. -/
theorem json?_ofText {s : String} (h : Text.wholeText? (Text.utf8Bytes s) = some s.toList) :
    (ofText s).json? = Json.parse? .standard s := by
  show (Text.wholeText? (Text.utf8Bytes s)).bind (Json.parseChars? .standard) = _
  rw [h]
  rfl

end FileState

end UsageLedger
