/-
UsageLedger/Json/Parser.lean

From tokens to values.  The parser reads one token after another; what is still
open is a stack of lists and objects, innermost first, so nesting costs no
recursion and its depth is the height of the stack.  In an object the last of
several members of one name counts, at the place of the first.
-/
import UsageLedger.Json.Lexer

namespace UsageLedger.Json

/-- A list or object whose end has not been read yet. -/
inductive Frame
  /-- The items so far, last first. -/
  | items (done : List Json)
  /-- The members so far, and the name of the member being read. -/
  | members (done : List (String × Json)) (name : String)
  deriving Inhabited

/-- What the next token may be. -/
inductive Mode
  /-- A value; right after an opening bracket also the end of the list. -/
  | value (endAllowed : Bool)
  /-- A name; right after an opening brace also the end of the object. -/
  | name (endAllowed : Bool)
  /-- The colon after a name. -/
  | colon
  /-- A separator or the end of the innermost list or object. -/
  | next
  /-- Nothing: the whole value has been read. -/
  | finished (v : Json)
  deriving Inhabited

/-- The parser between two tokens. -/
structure State where
  frames : List Frame
  mode : Mode
  deriving Inhabited

/-- Before the first token. -/
def State.start : State := ⟨[], .value false⟩

/-- A complete value goes to the innermost open list or object. -/
def State.deliver (frames : List Frame) (v : Json) : State :=
  match frames with
  | [] => ⟨[], .finished v⟩
  | .items done :: outer => ⟨.items (v :: done) :: outer, .next⟩
  | .members done name :: outer => ⟨.members (Catalog.put name v done) name :: outer, .next⟩

/-- Opens a list or an object, unless the nesting gets too deep. -/
def State.push (limits : Limits) (frames : List Frame) (f : Frame) (mode : Mode) : Option State :=
  match limits.depth with
  | some most => if most < frames.length + 1 then none else some ⟨f :: frames, mode⟩
  | none => some ⟨f :: frames, mode⟩

/-- Reads one token. -/
def State.step (limits : Limits) (s : State) (t : Token) : Option State :=
  match s.mode, t, s.frames with
  | .value _, .scalar v, frames => some (State.deliver frames v)
  | .value _, .openList, frames => State.push limits frames (.items []) (.value true)
  | .value _, .openObject, frames => State.push limits frames (.members [] "") (.name true)
  | .value true, .closeList, .items done :: outer => some (State.deliver outer (.list done.reverse))
  | .name _, .scalar (.text name), .members done _ :: outer =>
    some ⟨.members done name :: outer, .colon⟩
  | .name true, .closeObject, .members done _ :: outer => some (State.deliver outer (.object done))
  | .colon, .colon, frames => some ⟨frames, .value false⟩
  | .next, .comma, .items done :: outer => some ⟨.items done :: outer, .value false⟩
  | .next, .comma, .members done name :: outer => some ⟨.members done name :: outer, .name false⟩
  | .next, .closeList, .items done :: outer => some (State.deliver outer (.list done.reverse))
  | .next, .closeObject, .members done _ :: outer => some (State.deliver outer (.object done))
  | _, _, _ => none

/-- Reads tokens one after another. -/
def State.run (limits : Limits) : State → List Token → Option State
  | s, [] => some s
  | s, t :: rest => (s.step limits t).bind fun s' => s'.run limits rest

/-- The value that tokens spell, all of them used up. -/
def ofTokens? (limits : Limits) (ts : List Token) : Option Json :=
  match State.start.run limits ts with
  | some ⟨_, .finished v⟩ => some v
  | _ => none

/-- The value that characters spell. -/
def parseChars? (limits : Limits) (cs : List Char) : Option Json :=
  (tokens? limits (cs.length + 1) cs).bind (ofTokens? limits)

/-- The value that a text spells. -/
def parse? (limits : Limits) (s : String) : Option Json := parseChars? limits s.toList

end UsageLedger.Json
