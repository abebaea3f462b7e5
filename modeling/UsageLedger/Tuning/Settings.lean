/-
UsageLedger/Tuning/Settings.lean

The settings in use: the standard ones, with what a tuning profile recommends in
their place where that is a positive whole number.
-/
import UsageLedger.Json.Lookup

namespace UsageLedger.Tuning

/-- A positive whole number as it is given: a truth value counts as one. -/
structure Setting where
  given : Json
  value : Int
  whole?_given : given.whole? = some value
  positive : 0 < value

namespace Setting

/-- The setting that is a positive number. -/
def ofNat (n : Nat) (h : 0 < n := by decide) : Setting :=
  ⟨.int n, n, rfl, by exact_mod_cast h⟩

/-- The setting that a value gives, if it is a positive whole number. -/
def ofJson? (v : Json) : Option Setting :=
  match h : v.whole? with
  | some n => if positive : 0 < n then some ⟨v, n, h, positive⟩ else none
  | none => none

end Setting

/-- How many workers, requests and connections there are at once. -/
structure Settings where
  workers : Setting
  requests : Setting
  connections : Setting

namespace Settings

/-- The settings that are used if nothing is recommended. -/
def standard : Settings := ⟨.ofNat 8, .ofNat 100, .ofNat 100⟩

/-- The settings with one of them given under its name; other names and values that are no settings
change nothing. -/
def override (s : Settings) (name : String) (v : Json) : Settings :=
  match Setting.ofJson? v with
  | none => s
  | some x =>
    if name == "max_workers" then { s with workers := x }
    else if name == "max_concurrent" then { s with requests := x }
    else if name == "connector_limit" then { s with connections := x }
    else s

/-- The settings under a profile, if there is one. -/
def ofProfile (profile : Json) : Except Fault Settings := do
  if !profile.isPresent then return standard
  let recommended ← (← profile.memberOr "recommended" (.object [])).members
  return recommended.foldl (fun s (name, v) => s.override name v) standard

end Settings

end UsageLedger.Tuning
