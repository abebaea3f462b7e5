/-
UsageLedger/Url/Basic.lean

Addresses of resources, as far as they are taken apart here: the authority,
with the host in it, and the query, with its parameters.
-/
import UsageLedger.Text.Case
import UsageLedger.Url.Address
import UsageLedger.Url.Percent

namespace UsageLedger

/-- The parts of an address that are of use. -/
structure Url where
  authority : List Char
  query : List Char

namespace Url

/-- The text before the first occurrence of a mark, and the text after it if there is one. -/
def cut (mark : Char) (cs : List Char) : List Char × Option (List Char) :=
  match cs.dropWhile (· != mark) with
  | [] => (cs, none)
  | _ :: rest => (cs.takeWhile (· != mark), some rest)

/-- A character of a scheme. -/
def isSchemeChar (c : Char) : Bool := c.isAlphanum || c == '+' || c == '-' || c == '.'

/-- Drops a scheme and its colon from the front. -/
def dropScheme (cs : List Char) : List Char :=
  match cut ':' cs with
  | (scheme@(first :: _), some rest) =>
    if first.isAlpha && scheme.all isSchemeChar then rest else cs
  | _ => cs

/-- The authority after two slashes, and what follows it. -/
def takeAuthority (cs : List Char) : List Char × List Char :=
  match cs with
  | '/' :: '/' :: rest =>
    let ends (c : Char) : Bool := c == '/' || c == '?' || c == '#'
    (rest.takeWhile (!ends ·), rest.dropWhile (!ends ·))
  | cs => ([], cs)

/-- Characters whose compatibility form contains a mark that delimits the parts of an address. -/
def disguisedMarks : List Nat :=
  [ 0x2047, 0x2048, 0x2049, 0x2100, 0x2101, 0x2105, 0x2106, 0x2a74, 0xfe13, 0xfe16, 0xfe55, 0xfe56,
    0xfe5f, 0xfe6b, 0xff03, 0xff0f, 0xff1a, 0xff1f, 0xff20 ]

/-- Checks the brackets of an authority and what stands in them. -/
def checkBrackets (authority : List Char) : Except Fault Unit :=
  if authority.contains '[' != authority.contains ']' then .error (.invalid .bracketedHost)
  else if authority.contains '[' then
    checkBracketed (cut ']' ((cut '[' authority).2.getD [])).1
  else .ok ()

/-- Checks that an authority holds no mark in disguise. -/
def checkDisguise (authority : List Char) : Except Fault Unit :=
  if authority.any fun c => disguisedMarks.contains c.toNat then
    .error (.invalid (.hostCharacters (String.ofList authority)))
  else .ok ()

/-- Takes an address apart.  Controls and blanks in front of it and line breaks and tabs within do
not count. -/
def parse (s : String) : Except Fault Url := do
  let trimmed := s.toList.dropWhile fun c => c.toNat ≤ 0x20
  let cs := dropScheme (trimmed.filter fun c => !(c == '\t' || c == '\n' || c == '\r'))
  let (authority, rest) := takeAuthority cs
  checkBrackets authority
  let (beforeFragment, _) := cut '#' rest
  let (_, query) := cut '?' beforeFragment
  checkDisguise authority
  return ⟨authority, query.getD []⟩

/-- The part of an authority after the name of a user. -/
def afterUser (authority : List Char) : List Char :=
  (authority.reverse.takeWhile (· != '@')).reverse

/-- The host in an authority, without brackets and port; empty if there is none. -/
def hostText (authority : List Char) : List Char :=
  let server := afterUser authority
  match cut '[' server with
  | (_, some bracketed) => (cut ']' bracketed).1
  | (_, none) => (cut ':' server).1

/-- The host of an address in lower case; a zone keeps its case. -/
def host (u : Url) : String :=
  let host := hostText u.authority
  match cut '%' host with
  | (name, some zone) => Text.lower (String.ofList name) ++ "%" ++ String.ofList zone
  | (name, none) => Text.lower (String.ofList name)

/-- The parameters of an address in order; one without a value is left out. -/
def parameters (u : Url) : List (String × String) :=
  (Text.pieces '&' u.query).filterMap fun field =>
    match cut '=' field with
    | (name, some (c :: value)) =>
      some (String.ofList (decodeQuery name), String.ofList (decodeQuery (c :: value)))
    | _ => none

/-- The first value of a parameter. -/
def parameter? (u : Url) (name : String) : Option String := u.parameters.lookup name

end Url

end UsageLedger
