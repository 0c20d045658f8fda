/-
Boxes of text: a panel with a title in its upper edge, and a table that is as wide as the space it
gets. Some columns of a table have a fixed width and the others share what is left. Where the space
is too small for that, the sharing columns give way first and then all of them.
-/
import Maintainability.Report.Lines

namespace Maintainability

open Lines

/-! ## Panels -/

namespace Panel

/-- A panel around a text, with a title. -/
def render (width : Nat) (title text : List Char) : List (List Char) :=
  let label := ' ' :: title ++ [' ']
  let widest := ((Characters.splitOn '\n' text).map Width.of).foldl max 0
  let outer := min width (max (widest + 4) (Width.of label + 4))
  let space := outer - 4
  let label := truncate space .fold label
  let rest := space - Width.of label
  let top := '╭' :: '─' :: List.replicate (rest / 2) '─' ++ label ++
    List.replicate (rest - rest / 2) '─' ++ ['─', '╮']
  let bottom := '╰' :: List.replicate (outer - 2) '─' ++ ['╯']
  top :: (layout space .fold .loose text).map (fun line =>
    '│' :: ' ' :: line ++ blanks (space - Width.of line) ++ [' ', '│']) ++ [bottom]

end Panel

/-! ## Tables -/

namespace Table

/-- How wide a column is. -/
inductive Size where
  /-- So many cells. -/
  | fixed (cells : Nat)
  /-- So many parts of what the fixed columns leave. -/
  | share (parts : Nat)
  deriving DecidableEq, Repr

/-- A column. -/
structure Column where
  /-- What stands above it. -/
  header : String
  /-- How wide it is. -/
  size : Size
  /-- Where its cells stand. -/
  placing : Placing
  deriving DecidableEq, Repr

/-- The blanks on both sides of a cell. -/
def padding : Nat := 2

/-- A column that shares what is left. -/
def Column.isShare (c : Column) : Bool :=
  match c.size with
  | .fixed _ => false
  | .share _ => true

/-- The width that a column asks for, blanks included, if at most so many cells can be had. -/
def Column.wish (space : Nat) (c : Column) (cells : List (List Char)) : Nat :=
  match c.size with
  | .fixed n => min (n + padding) space
  | .share _ =>
    let lines := (c.header.toList :: cells).flatMap (Characters.splitOn '\n')
    if space < padding + 1 then space else min ((lines.map Width.of).foldl max 0 + padding) space

/-- The integers that a number is divided into by ratios, each not below its least value; fractions
are rounded up. -/
def distribute (total ratio : Int) : List (Nat × Nat) → List Int
  | [] => []
  | (part, least) :: rest =>
    let n := max (least : Int) (-((-(part * total)).fdiv ratio))
    n :: distribute (total - n) (ratio - part) rest

/-- The nearest integer to a quotient, the even one of two. -/
def nearest (num den : Nat) : Nat :=
  let q := num / den
  let r := num % den
  if 2 * r < den then q else if den < 2 * r then q + 1 else q + q % 2

/-- Takes a total off some widths in equal parts, off each at most so much. -/
def reduce (total count : Nat) : List (Bool × Nat × Nat) → List Nat
  | [] => []
  | (isTaken, most, width) :: rest =>
    if isTaken ∧ 0 < most ∧ 0 < count then
      let n := min most (nearest total count)
      (width - n) :: reduce (total - n) (count - 1) rest
    else width :: reduce total count rest

/-- Takes a total off some widths, off each at most so much, as evenly as can be. -/
def reduceEvenly (total : Nat) (marked : List (Bool × Nat × Nat)) : List Nat :=
  reduce total (marked.countP fun (isTaken, most, _) => isTaken && decide (0 < most)) marked

/-- Makes the widest of the columns that may shrink as narrow as the next one, until all fit. -/
def collapse (space : Nat) (shrinks : List Bool) : Nat → List Nat → List Nat
  | 0, widths => widths
  | fuel + 1, widths =>
    let excess := total widths - space
    if excess = 0 then widths
    else
      let free := (shrinks.zip widths).filterMap fun (b, w) => if b then some w else none
      let widest := free.foldl max 0
      let second := (free.filter (· ≠ widest)).foldl max 0
      let most := min excess (widest - second)
      if most = 0 then widths
      else
        collapse space shrinks fuel (reduceEvenly excess
          ((shrinks.zip widths).map fun (b, w) => (b && w == widest, most, w)))

/-- The widths of columns, blanks included, in so much space. -/
def widths (space : Nat) (columns : List (Column × List (List Char))) : List Nat :=
  let fixed : List Nat := columns.map fun (c, cells) => if c.isShare then 0 else c.wish space cells
  let parts := columns.filterMap fun (c, _) => match c.size with
    | .share n => some n
    | .fixed _ => none
  let shares := distribute (Int.ofNat space - Int.ofNat (total fixed)) (Int.ofNat (total parts))
    (parts.map fun n => (n, padding + 1))
  let put (acc : List Nat × List Int) (x : (Column × List (List Char)) × Nat) :
      List Nat × List Int :=
    match x.1.1.isShare, acc.2 with
    | true, n :: rest => (n.toNat :: acc.1, rest)
    | _, rest => (max x.2 1 :: acc.1, rest)
  let wanted := ((columns.zip fixed).foldl put ([], shares)).1.reverse
  if total wanted ≤ space then wanted
  else
    let shrunk := collapse space (columns.map fun (c, _) => c.isShare) (total wanted) wanted
    let least := reduceEvenly (total shrunk - space) (shrunk.map fun w => (true, w, w))
    (columns.zip least).map fun ((c, cells), w) => if w = 0 then 0 else c.wish w cells

/-- The lines of a cell. -/
def cellLines (width : Nat) (placing : Placing) (cell : List Char) : List (List Char) :=
  let inner := width - padding
  if inner = 0 then []
  else
    (layout inner .ellipsis placing cell).map fun line =>
      ' ' :: line ++ blanks (inner - Width.of line) ++ [' ']

/-- The lines of a row between bars. -/
def row (bar : Char) (isHeader : Bool) (cells : List (Nat × List (List Char))) :
    List (List Char) :=
  let height := max 1 ((cells.map fun (_, ls) => ls.length).foldl max 0)
  let filled := cells.map fun (w, ls) =>
    let more := List.replicate (height - ls.length) (blanks w)
    if isHeader then more ++ ls else ls ++ more
  (List.range height).map fun i =>
    bar :: filled.flatMap fun ls => ls.getD i [] ++ [bar]

/-- A rule across the table. -/
def rule (left line cross right : Char) (widths : List Nat) : List Char :=
  left :: List.intercalate [cross] (widths.map (List.replicate · line)) ++ [right]

/-- A table with a title, in so many cells. -/
def render (width : Nat) (title : List Char) (columns : List Column)
    (rows : List (List (List Char))) : List (List Char) :=
  let cellsOf (i : Nat) : List (List Char) := rows.map fun r => r.getD i []
  let indexed := columns.zipIdx.map fun (c, i) => (c, cellsOf i)
  let ws := widths (width - (columns.length + 1)) indexed
  let outer := total ws + columns.length + 1
  let lines (cells : List (List Char)) : List (Nat × List (List Char)) :=
    (ws.zip (columns.zip cells)).map fun (w, c, cell) => (w, cellLines w c.placing cell)
  layout outer .fold .center title ++
    [rule '┏' '━' '┳' '┓' ws] ++
    row '┃' true (lines (columns.map fun c => c.header.toList)) ++
    [rule '┡' '━' '╇' '┩' ws] ++
    rows.flatMap (fun r => row '│' false (lines r)) ++
    [rule '└' '─' '┴' '┘' ws]

end Table

end Maintainability
