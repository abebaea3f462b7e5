/-
UsageLedger/Report/Table.lean

Reports as fixed-width text: the title, one table for the whole, one by group
and one by user.  The buckets of a table share their column widths, so its rows
line up; a bucket is as wide as its label or its widest count.
-/
import UsageLedger.Report.Selection
import UsageLedger.Text.Align

namespace UsageLedger

/-! ### Bucket columns -/

/-- Widths that also fit the counts of a row. -/
def widen : List Nat → List Nat → List Nat
  | w :: ws, n :: ns => max w (toString n).length :: widen ws ns
  | ws, _ => ws

/-- The widths of the bucket columns: of the label, or of the widest count in any row. -/
def bucketWidths (labels : List String) (rows : List (List Nat)) : List Nat :=
  rows.foldl widen (labels.map String.length)

/-- The labels of the buckets in their columns. -/
def bucketHeader (labels : List String) (widths : List Nat) : String :=
  " ".intercalate (List.zipWith (fun l w => Text.padStart w l) labels widths)

/-- The counts of the buckets in their columns, filled up with zeros. -/
def bucketCells (widths : List Nat) (counts : List Nat) : String :=
  " ".intercalate (List.zipWith (fun (n : Nat) w => Text.zeroFill w n) counts widths)

/-! ### Tables -/

/-- A column: its name and its width. -/
abbrev Column := String × Nat

/-- The columns that describe usage. -/
def usageColumns : List Column :=
  [("#Directories", 12), ("#Symlinks", 9), ("#Files", 11), ("Size [MiB]", 10), ("#Blocks", 11)]

/-- The numbers of groups and of users. -/
def overallColumns : List Column := [("#Groups", 8), ("#Users", 11)] ++ usageColumns

/-- The width of the key in front of a row. -/
def keyWidth : Nat := 22

/-- What stands between cells. -/
def cellSeparator : String := " | "

/-- Cells as a line. -/
def joinCells (cells : List String) : String := cellSeparator.intercalate cells

/-- A rule of some length. -/
def rule (length : Nat) : String := String.ofList (List.replicate length '-')

/-- Blanks in place of a text. -/
def blanks (width : Nat) : String := String.ofList (List.replicate width ' ')

/-- The three lines above the rows of a table. -/
def headerLines (first : String) (columns : List Column) (buckets : String) : List String :=
  let names := joinCells (first :: columns.map (fun c => Text.padEnd c.2 c.1) ++ ["File Size Buckets"])
  let labels := joinCells (blanks first.length :: columns.map (fun c => blanks c.2) ++ [buckets])
  [names, labels, rule (max names.length labels.length)]

/-- Numbers in their columns. -/
def numberCells (columns : List Column) (values : List Int) : List String :=
  List.zipWith (fun c n => Text.padStart c.2 (toString n)) columns values

/-- A line of a table, and whether all its numbers can be written. -/
structure Row where
  text : String
  writable : Bool

/-- Whether a number has few enough digits to be written. -/
def isWritable (n : Int) : Bool := Number.isWritableIn (some Number.maxDigits) n

/-- The numbers that describe usage, in the order of their columns. -/
def Usage.values {b : Borders} (u : Usage b) : List Int :=
  [u.directories, u.symlinks, u.files, u.mebibytes, u.blocks]

/-- A row: what stands first, numbers, and the buckets. -/
def rowOf {b : Borders} (first : List String) (columns : List Column) (values : List Int)
    (widths : List Nat) (u : Usage b) : Row :=
  ⟨joinCells (first ++ numberCells columns values ++ [bucketCells widths u.sizes.counts]),
    values.all isWritable⟩

/-- A line without numbers. -/
def plainRow (text : String) : Row := ⟨text, true⟩

namespace Report

variable {b : Borders}

/-- The title of a report. -/
def titleLines (r : Report b) : List String :=
  let title := "Usage Summary : " ++ r.path
  ["", title, rule title.length, ""]

/-- The lines of the title.  The labels of the buckets are made before them, so they wait for every label
to be one that can be written. -/
def titleRows (r : Report b) : List Row :=
  r.titleLines.map fun line => ⟨line, (b.labels (some Number.maxDigits)).isOk⟩

/-- The table for the whole. -/
def overallTable (r : Report b) : List Row :=
  let widths := bucketWidths b.spelledLabels [r.overall.sizes.counts]
  let first := match overallColumns.head? with
    | some c => Text.padEnd c.2 c.1
    | none => ""
  (headerLines first overallColumns.tail (bucketHeader b.spelledLabels widths)).map plainRow ++
    [rowOf [] overallColumns ([(r.groups.length : Int), (r.users.length : Int)] ++ r.overall.values)
      widths r.overall]

/-- The key in front of a row; an empty one is shown as a dash. -/
def keyCell (key : String) : String := Text.padStart keyWidth (if key.isEmpty then "-" else key)

/-- The widths of the buckets in a table of some rows. -/
def widthsOf (rows : List (String × Usage b)) : List Nat :=
  bucketWidths b.spelledLabels (rows.map fun row => row.2.sizes.counts)

/-- The row of a key. -/
def keyRow (widths : List Nat) (row : String × Usage b) : Row :=
  rowOf [keyCell row.1] usageColumns row.2.values widths row.2

/-- The lines above the rows of a table by key; the first cell tells how many rows follow. -/
def keyHeader (title : String) (rows : List (String × Usage b)) : List String :=
  let first := Text.padEnd (keyWidth - 9) title ++ Text.padStart 9 (toString rows.length)
  headerLines first usageColumns (bucketHeader b.spelledLabels (widthsOf rows))

/-- A table by key. -/
def keyTable (title : String) (rows : List (String × Usage b)) : List Row :=
  (keyHeader title rows).map plainRow ++ rows.map (keyRow (widthsOf rows))

/-- All lines of a report. -/
def rows (o : ReportOptions) (r : Report b) : List Row :=
  r.titleRows ++ r.overallTable ++ [plainRow ""] ++
    keyTable "By group:" (r.groupRows o) ++ [plainRow ""] ++ keyTable "By user:" (r.userRows o)

/-- Lines as text. -/
def unlines (lines : List Row) : String := String.join (lines.map fun l => l.text ++ "\n")

/-- A report as text.  A number with too many digits breaks it off before its line. -/
def print (o : ReportOptions) (r : Report b) : String × Option Fault :=
  let lines := r.rows o
  if lines.all (·.writable) then (unlines lines, none)
  else (unlines (lines.takeWhile (·.writable)), some (.invalid .longNumber))

end Report

end UsageLedger
