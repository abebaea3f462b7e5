/-
UsageLedger/Fault.lean

What can go wrong, by cause.  Each cause carries what its message names; the
wording is in the `message` functions alone.
-/
import UsageLedger.Number.Numeral
import UsageLedger.Text.Quoted

namespace UsageLedger

/-- Why an input is not acceptable. -/
inductive Invalid
  /-- A size that is not a decimal number followed by letters. -/
  | sizeFormat (text : String)
  | sizeUnit (unit : String)
  | noBorders
  | negativeBorder (border : Int)
  | borderOrder (lower upper : Int)
  /-- Text that is not a whole number. -/
  | numeral (text : String)
  | longNumeral (digits : Nat)
  /-- A whole number with too many digits to be written. -/
  | longNumber
  /-- The value that is not a number, where a whole number is due. -/
  | notANumber
  | metric (shown : String)
  | nameFilter (pattern : String)
  /-- A pattern that asks for two character sets at once. -/
  | flagClash
  | workerCount
  /-- The body of an answer that cannot be decoded. -/
  | body (detail : String)
  /-- A member given as a sequence that is not a pair. -/
  | notAPair (index length : Nat)
  | bracketedHost
  | hostAddress (host : String)
  | futureAddress
  | fourPartAddress
  | hostCharacters (host : String)
  deriving DecidableEq, Repr

/-- The wording of each cause. -/
def Invalid.message : Invalid → String
  | sizeFormat text => "Invalid size format: " ++ text
  | sizeUnit unit => "Unknown size unit: " ++ unit
  | noBorders => "At least one bucket border is required"
  | negativeBorder border => "Bucket borders must be non-negative: " ++ toString border
  | borderOrder lower upper =>
    "Bucket borders must be strictly increasing: " ++ toString lower ++ " >= " ++ toString upper
  | numeral text => "invalid literal for int() with base 10: " ++ Text.quoted text
  | longNumeral digits =>
    "Exceeds the limit (" ++ toString Number.maxDigits ++
      " digits) for integer string conversion: value has " ++ toString digits ++
      " digits; use sys.set_int_max_str_digits() to increase the limit"
  | longNumber =>
    "Exceeds the limit (" ++ toString Number.maxDigits ++
      " digits) for integer string conversion; use sys.set_int_max_str_digits() to increase the limit"
  | notANumber => "cannot convert float NaN to integer"
  | metric shown =>
    "Unknown sort metric: " ++ shown ++ " (choose from blocks, files, directories, fileSize)"
  | nameFilter pattern => "Invalid user name filter '" ++ pattern ++ "'"
  | flagClash => "ASCII and UNICODE flags are incompatible"
  | workerCount => "max_workers must be greater than 0"
  | body detail => detail
  | notAPair index length =>
    "dictionary update sequence element #" ++ toString index ++ " has length " ++ toString length ++
      "; 2 is required"
  | bracketedHost => "Invalid IPv6 URL"
  | hostAddress host => Text.quoted host ++ " does not appear to be an IPv4 or IPv6 address"
  | futureAddress => "IPvFuture address is invalid"
  | fourPartAddress => "An IPv4 address cannot be in brackets"
  | hostCharacters host =>
    "netloc '" ++ host ++ "' contains invalid characters under NFKC normalization"

/-- What is wrong with a snapshot. -/
inductive SnapshotFault
  | unreadable (file : String)
  | badLine (file : String) (line : Int)
  | noPath (file : String) (line : Int)
  | unknownKind (file : String) (line : Int) (shown : String)
  /-- An entry whose parent is recorded as something else than a directory. -/
  | belowLeaf (child parent : String)
  | notFound (path : String)
  deriving DecidableEq, Repr

/-- The wording of each snapshot fault. -/
def SnapshotFault.message : SnapshotFault → String
  | unreadable file => "Cannot read snapshot " ++ file
  | badLine file line => file ++ ":" ++ toString line ++ ": invalid JSON"
  | noPath file line => file ++ ":" ++ toString line ++ ": entry has no path"
  | unknownKind file line shown =>
    file ++ ":" ++ toString line ++ ": unknown entry type: " ++ shown
  | belowLeaf child parent =>
    "Entry below a non-directory: " ++ child ++ " (parent " ++ parent ++ " is not a directory)"
  | notFound path => "Path not found in snapshot: " ++ path

/-- Why there is no place for the credentials. -/
inductive StoreFault
  | noHome
  | isDirectory (path : String)
  deriving DecidableEq, Repr

/-- The wording of each store fault. -/
def StoreFault.message : StoreFault → String
  | noHome => "Could not find home directory for credentials store"
  | isDirectory path => "Credentials store is a directory: " ++ path

/-- Why a request to the cluster has no answer. -/
inductive NetworkFault
  /-- An answer with a status that says so. -/
  | refused (status : Int) (reason url : String)
  /-- A connection that broke down. -/
  | broken (detail : String)
  /-- A connection that could not be made. -/
  | unreachable (detail : String)
  deriving DecidableEq, Repr

/-- The wording of each network fault. -/
def NetworkFault.message : NetworkFault → String
  | refused status reason url =>
    toString status ++ ", message=" ++ Text.quoted reason ++ ", url=" ++ Text.quoted url
  | broken detail => detail
  | unreachable detail => detail

/-- What can go wrong. -/
inductive Fault
  /-- A member is asked of a value that has none. -/
  | noMember
  /-- A value of the wrong kind is computed with, compared or gone through. -/
  | wrongKind
  /-- A number is too large for the computation. -/
  | outOfRange
  /-- The first of no items is asked for. -/
  | noItem
  /-- Something is nested too deeply to be gone through. -/
  | tooDeep
  | invalid (why : Invalid)
  | snapshot (why : SnapshotFault)
  | store (why : StoreFault)
  | network (why : NetworkFault)
  /-- The user broke off. -/
  | interrupted
  /-- The end was not reached in the number of steps allowed. -/
  | endless
  deriving DecidableEq, Repr

/-- The message of a fault; the faults that only inconsistent data cause have none. -/
def Fault.message : Fault → String
  | invalid why => why.message
  | snapshot why => why.message
  | store why => why.message
  | network why => why.message
  | _ => ""

/-- A computation goes through when its first part does and the rest does with what that brings. -/
theorem bind_eq_ok {α β : Type} {x : Except Fault α} {f : α → Except Fault β} {b : β} :
    x >>= f = .ok b ↔ ∃ a, x = .ok a ∧ f a = .ok b := by
  constructor
  · intro h
    cases x with
    | error e => cases h
    | ok a => exact ⟨a, rfl, h⟩
  · rintro ⟨a, rfl, h⟩
    exact h

/-- A computation fails when its first part does, or the rest does with what that brings. -/
theorem bind_eq_error {α β : Type} {x : Except Fault α} {f : α → Except Fault β} {e : Fault} :
    x >>= f = .error e ↔ x = .error e ∨ ∃ a, x = .ok a ∧ f a = .error e := by
  constructor
  · intro h
    cases x with
    | error e' =>
      cases h
      exact .inl rfl
    | ok a => exact .inr ⟨a, rfl, h⟩
  · rintro (rfl | ⟨a, rfl, h⟩)
    · rfl
    · exact h

/-- A list has the fault of the first of its items that fails. -/
theorem mapM_eq_error_iff {α β : Type} {f : α → Except Fault β} {items : List α} {e : Fault} :
    items.mapM f = .error e ↔
      ∃ front a rest, items = front ++ a :: rest ∧ (∀ x ∈ front, ∃ b, f x = .ok b) ∧
        f a = .error e := by
  induction items with
  | nil =>
    constructor
    · intro h
      cases h
    · rintro ⟨front, a, rest, h, -⟩
      exact absurd h.symm (List.append_ne_nil_of_right_ne_nil _ (List.cons_ne_nil a rest))
  | cons a others ih =>
    rw [List.mapM_cons, bind_eq_error]
    constructor
    · rintro (ha | ⟨b, hb, h⟩)
      · exact ⟨[], a, others, rfl, nofun, ha⟩
      · rcases bind_eq_error.1 h with hothers | ⟨_, _, h⟩
        · obtain ⟨front, a', rest, rfl, hfront, ha'⟩ := ih.1 hothers
          exact ⟨a :: front, a', rest, rfl, List.forall_mem_cons.2 ⟨⟨b, hb⟩, hfront⟩, ha'⟩
        · cases h
    · rintro ⟨front, a', rest, hitems, hfront, ha'⟩
      cases front with
      | nil =>
        obtain ⟨rfl, rfl⟩ := List.cons.inj hitems
        exact .inl ha'
      | cons x front =>
        obtain ⟨rfl, rfl⟩ := List.cons.inj hitems
        obtain ⟨⟨b, hb⟩, hfront⟩ := List.forall_mem_cons.1 hfront
        exact .inr ⟨b, hb, bind_eq_error.2 (.inl (ih.2 ⟨front, a', rest, rfl, hfront, ha'⟩))⟩

end UsageLedger
