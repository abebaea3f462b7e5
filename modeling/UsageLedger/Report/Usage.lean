/-
UsageLedger/Report/Usage.lean

Usage: how many files, directories and symbolic links there are, and how much
the files take up.  Sizes and blocks of files alone are added up.
-/
import UsageLedger.Histogram

namespace UsageLedger

/-- Running totals, with a histogram of file sizes. -/
structure Usage (b : Borders) where
  files : Nat
  directories : Nat
  symlinks : Nat
  blocks : Int
  bytes : Int
  sizes : Histogram b

namespace Usage

variable {b : Borders}

/-- Nothing counted yet. -/
def zero (b : Borders) : Usage b := ⟨0, 0, 0, 0, 0, .empty b⟩

/-- One more file. -/
def addFile (u : Usage b) (size blocks : Int) : Usage b :=
  { u with
    files := u.files + 1
    bytes := u.bytes + size
    blocks := u.blocks + blocks
    sizes := u.sizes.add size }

/-- One more directory. -/
def addDirectory (u : Usage b) : Usage b := { u with directories := u.directories + 1 }

/-- One more symbolic link. -/
def addSymlink (u : Usage b) : Usage b := { u with symlinks := u.symlinks + 1 }

/-- The total size in whole mebibytes. -/
def mebibytes (u : Usage b) : Int := u.bytes / 1024 / 1024

theorem mebibytes_eq (u : Usage b) : u.mebibytes = u.bytes / 1048576 := by
  unfold mebibytes
  omega

/-- Usage as it appears in messages, with the key it belongs to. -/
def describe (u : Usage b) (key : Json) : String :=
  "UsageStats(key=" ++ key.quoted ++ ", files=" ++ toString u.files ++ ", dirs=" ++
    toString u.directories ++ ", symlinks=" ++ toString u.symlinks ++ ", blocks=" ++
    toString u.blocks ++ ", bytes=" ++ toString u.bytes ++ ")"

end Usage

end UsageLedger
