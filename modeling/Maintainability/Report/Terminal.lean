/-
The report for a terminal: a panel with the totals, a table of the least maintainable files, the
groups of duplicate methods that span files, and the files that were skipped. Paths, names and
reasons go through the markup of the terminal like all other text.

How marked-up text is read and how text is laid out is up to the `Console`. The report is made for any;
`Console.standard` is the one that runs.
-/
import Maintainability.Analysis.Result
import Maintainability.Report.Markup
import Maintainability.Report.Table

namespace Maintainability

/-- What a terminal does with text. -/
structure Console where
  /-- The plain part of marked-up text, or what is wrong with its markup. -/
  read : List Char → Except Fault (List Char)
  /-- Plain text in lines of so many cells. -/
  lines : Nat → List Char → List (List Char)
  /-- A panel of at most so many cells, with a title and a text. -/
  panel : Nat → List Char → List Char → List (List Char)
  /-- A table of so many cells, with a title, columns and rows. -/
  table : Nat → List Char → List Table.Column → List (List (List Char)) → List (List Char)

/-- The terminal that runs. It knows the markup that is documented. -/
def Console.standard : Console where
  read := Markup.plain
  lines width cs := Lines.layout width .fold .loose cs
  panel := Panel.render
  table := Table.render

namespace Terminal

/-! ## Printing -/

/-- What has been printed, and the fault that ended it, if one did. -/
structure Printed where
  /-- The text. -/
  text : List Char := []
  /-- The fault. -/
  fault? : Option Fault := none
  deriving Repr, Inhabited

/-- Prints more, unless a fault ended it. -/
def Printed.andThen (a : Printed) (b : Unit → Printed) : Printed :=
  match a.fault? with
  | some _ => a
  | none =>
    let b := b ()
    ⟨a.text ++ b.text, b.fault?⟩

/-- Lines, each with its end. -/
def ended (lines : List (List Char)) : List Char := lines.flatMap (· ++ ['\n'])

/-- Prints lines, or ends with a fault. -/
def printed : Except Fault (List (List Char)) → Printed
  | .ok lines => ⟨ended lines, none⟩
  | .error f => ⟨[], some f⟩

/-- Prints things one after the other, up to the first fault. -/
def sequence (things : List (Unit → Printed)) : Printed :=
  things.foldl Printed.andThen {}

/-- Prints an empty line. -/
def gap : Unit → Printed := fun _ => ⟨['\n'], none⟩

/-- Prints marked-up text in so many cells. -/
def say (c : Console) (width : Nat) (markup : String) : Unit → Printed := fun _ =>
  printed do
    let cs ← c.read markup.toList
    pure (c.lines width cs)

/-! ## Numbers -/

/-- A score with the colour of its range. -/
def scoreLabel (score : Quantity) : Except Fault String := do
  let text ← score.fixed 2
  if Quantity.atMost (.int 20) score then pure ("[green]" ++ text ++ "[/green]")
  else if Quantity.atMost (.int 10) score then pure ("[yellow]" ++ text ++ "[/yellow]")
  else pure ("[red bold]" ++ text ++ "[/red bold]")

/-- A complexity with the colour of its range. -/
def complexityLabel (n : Int) : Except Fault String := do
  let text ← Written.int n
  if 50 < n then pure ("[red bold]" ++ text ++ "[/red bold]")
  else if 20 < n then pure ("[yellow]" ++ text ++ "[/yellow]")
  else pure text

/-! ## Sections -/

/-- The totals in words. -/
def totals (r : Result) : Except Fault String := do
  let files ← Written.int r.totalFiles
  let lines ← Written.int r.totalLines
  let complexity ← r.averageComplexity.fixed 2
  let score ← scoreLabel r.averageMaintainability
  pure ("Analyzed [bold]" ++ files ++ "[/bold] files  |  [bold]" ++ lines ++
    "[/bold] lines  |  Avg complexity: [cyan]" ++ complexity ++
    "[/cyan]  |  Avg maintainability: " ++ score ++
    (if r.skipped.isEmpty then ""
      else "  |  [red]" ++ toString r.skipped.length ++ " skipped[/red]"))

/-- The panel with the totals. -/
def summary (c : Console) (width : Nat) (r : Result) : List (Unit → Printed) :=
  [fun _ => printed do
    let markup ← totals r
    let title ← c.read "[bold cyan]Summary[/bold cyan]".toList
    let text ← c.read markup.toList
    pure (c.panel width title text), gap]

/-- The columns of the table of files. -/
def columns : List Table.Column :=
  [⟨"#", .fixed 4, .left⟩, ⟨"File", .share 3, .left⟩, ⟨"Lines", .fixed 7, .right⟩,
    ⟨"CC", .fixed 6, .right⟩, ⟨"Volume", .fixed 10, .right⟩, ⟨"MI", .fixed 8, .right⟩,
    ⟨"Duplicated With", .share 2, .left⟩]

/-- The row of the file at a rank. -/
def fileRow (rank : Nat) (f : FileMetrics) : Except Fault (List String) := do
  let lines ← Written.int f.lines
  let complexity ← complexityLabel f.complexity
  let volume ← f.volume.fixed 1
  let score ← scoreLabel f.maintainability
  let others := ", ".intercalate f.duplicatedWith
  pure [toString rank, f.path, lines, complexity, volume, score,
    if others.isEmpty then "-" else others]

/-- The plain parts of the cells of a table. They are found column by column, and those of the
columns that share the space before the others. -/
def plainRows (c : Console) (rows : List (List String)) : Except Fault (List (List (List Char))) := do
  let column (i : Nat) : Except Fault (List (List Char)) :=
    rows.mapM fun r => c.read (r.getD i "").toList
  let _ ← column 1
  let _ ← column 6
  rows.mapM fun r => r.mapM fun cell => c.read cell.toList

/-- The table of the least maintainable files. -/
def files (c : Console) (width : Nat) (top : Int) (r : Result) : List (Unit → Printed) :=
  if r.files.isEmpty then []
  else
    let shown := r.worstFiles top
    let title := toString shown.length ++ " Least Maintainable Files"
    [fun _ => printed do
      let rows ← shown.zipIdx.mapM fun (f, i) => fileRow (i + 1) f
      let plain ← plainRows c rows
      pure (c.table width title.toList columns plain), gap]

/-- The groups of duplicate methods that span files. -/
def duplicates (c : Console) (width : Nat) (r : Result) : List (Unit → Printed) :=
  let groups := r.groups.filter fun g => decide (1 < g.files.length)
  if groups.isEmpty then []
  else
    say c width ("[bold]Duplicated methods[/bold] (" ++ toString groups.length ++ " groups):") ::
      groups.map (fun g => say c width ("  [magenta]-[/magenta] " ++
        ", ".intercalate (g.occurrences.map fun o => o.path ++ "#" ++ o.method))) ++ [gap]

/-- The files that were skipped. -/
def skipped (c : Console) (width : Nat) (r : Result) : List (Unit → Printed) :=
  if r.skipped.isEmpty then []
  else
    say c width "[bold]Skipped files[/bold] (could not be parsed):" ::
      r.skipped.map (fun s =>
        say c width ("  [red]![/red] " ++ s.path ++ " [dim](" ++ s.reason ++ ")[/dim]")) ++ [gap]

/-- The report, with at most so many files, in lines of so many cells. -/
def report (c : Console) (width : Nat) (top : Int) (r : Result) : Printed :=
  sequence (summary c width r ++ files c width top r ++ duplicates c width r ++ skipped c width r)

end Terminal

end Maintainability
