/-
Fitting text into lines of so many cells. A line ends where the next word would not fit. A word that
is longer than a line either goes over several lines or is cut off; blanks that stick out at the end
of a line are dropped.
-/
import Maintainability.Text
import Maintainability.Text.Width

namespace Maintainability.Lines

open Characters (isBlank)

/-! ## Words -/

theorem length_dropWhile_le {α : Type} (p : α → Bool) (l : List α) :
    (l.dropWhile p).length ≤ l.length := (List.dropWhile_suffix (l := l) p).length_le

/-- The words of a text, each with the blanks behind it, and the first one also with the blanks
before it. -/
def words (cs : List Char) : List (List Char) :=
  match _h : cs.dropWhile isBlank with
  | [] => []
  | c :: rest =>
    let inner := rest.takeWhile (!isBlank ·)
    let behind := rest.dropWhile (!isBlank ·)
    (cs.takeWhile isBlank ++ c :: inner ++ behind.takeWhile isBlank) ::
      words (behind.dropWhile isBlank)
termination_by cs.length
decreasing_by
  have h₁ := length_dropWhile_le isBlank cs
  have h₂ := length_dropWhile_le (!isBlank ·) rest
  have h₃ := length_dropWhile_le isBlank (rest.dropWhile (!isBlank ·))
  rw [_h] at h₁
  simp only [List.length_cons] at h₁
  omega

/-- Without the blanks at the end. -/
def trimEnd (cs : List Char) : List Char := (cs.reverse.dropWhile isBlank).reverse

/-! ## Cutting -/

/-- Cuts characters into parts of at most so many cells; `used` cells of the first are taken. -/
def chopFrom (width used : Nat) (part : List Char) : List Char → List (List Char)
  | [] => [part.reverse]
  | c :: cs =>
    let w := Width.ofChar c
    if width < used + w then part.reverse :: chopFrom width w [c] cs
    else chopFrom width (used + w) (c :: part) cs

/-- Cuts characters into parts of at most so many cells. -/
def chop (width : Nat) (cs : List Char) : List (List Char) := chopFrom width 0 [] cs

/-- The first characters that fit into so many cells, and a blank where half a character would be
left. -/
def cutTo : Nat → List Char → List Char
  | width, [] => List.replicate width ' '
  | 0, _ => []
  | width + 1, c :: cs =>
    let w := Width.ofChar c
    if width + 1 < w then List.replicate (width + 1) ' '
    else c :: cutTo (width + 1 - w) cs

/-- What is done with a word that is longer than a line. -/
inductive Overflow where
  /-- It goes over several lines. -/
  | fold
  /-- It is cut off, and three dots say so. -/
  | ellipsis
  deriving DecidableEq, Repr

/-- A line of at most so many cells. -/
def truncate (width : Nat) (overflow : Overflow) (line : List Char) : List Char :=
  if Width.of line ≤ width then line
  else
    match overflow with
    | .fold => cutTo width line
    | .ellipsis => cutTo (width - 1) line ++ ['…']

/-! ## Filling -/

/-- Lines that are being filled: those that are full, the last one first, and the one at hand with
its width. -/
structure Filling where
  /-- The full lines, the last one first. -/
  full : List (List Char) := []
  /-- The line at hand. -/
  line : List Char := []
  /-- Its width. -/
  used : Nat := 0

/-- Begins a new line with some characters; the very first line is not ended. -/
def Filling.next (f : Filling) (cs : List Char) : Filling :=
  if f.full.isEmpty ∧ f.line.isEmpty then ⟨[], cs, Width.of cs⟩
  else ⟨f.line :: f.full, cs, Width.of cs⟩

/-- Adds a word. -/
def Filling.add (width : Nat) (overflow : Overflow) (f : Filling) (word : List Char) : Filling :=
  let w := Width.of (trimEnd word)
  if f.used + w ≤ width then { f with line := f.line ++ word, used := f.used + Width.of word }
  else if w ≤ width then f.next word
  else
    match overflow with
    | .fold => (chop width word).foldl Filling.next f
    | .ellipsis => f.next word

/-- Breaks a line into lines. -/
def fill (width : Nat) (overflow : Overflow) (cs : List Char) : List (List Char) :=
  let ws := words cs
  if ws.isEmpty then [cs]
  else
    let f := ws.foldl (Filling.add width overflow) {}
    (f.line :: f.full).reverse

/-- Drops blanks at the end of a line that stick out. -/
def dropExcess (width : Nat) (line : List Char) : List Char :=
  let blanks := (line.reverse.takeWhile isBlank).length
  line.take (line.length - min blanks (line.length - width))

/-! ## Placing -/

/-- Where a line stands in its space. -/
inductive Placing where
  /-- As it is, with nothing behind it. -/
  | loose
  /-- At the left. -/
  | left
  /-- At the right. -/
  | right
  /-- In the middle. -/
  | center
  deriving DecidableEq, Repr

/-- So many blanks. -/
def blanks (n : Nat) : List Char := List.replicate n ' '

/-- Puts a line in its place. -/
def place (width : Nat) (overflow : Overflow) (placing : Placing) (line : List Char) :
    List Char :=
  match placing with
  | .loose => truncate width overflow line
  | .left =>
    let line := truncate width overflow line
    line ++ blanks (width - Width.of line)
  | .right =>
    let line := truncate width overflow (trimEnd line)
    blanks (width - Width.of line) ++ line
  | .center =>
    let line := truncate width overflow (trimEnd line)
    let before := (width - Width.of line) / 2
    blanks before ++ line ++ blanks (width - Width.of line - before)

/-- Replaces tabs by blanks up to the next multiple of eight cells. -/
def expandTabs (used : Nat) : List Char → List Char
  | [] => []
  | c :: cs =>
    if c = '\t' then
      let n := 8 - used % 8
      blanks n ++ expandTabs (used + n) cs
    else c :: expandTabs (used + Width.ofChar c) cs

/-- Lays a text out in lines of so many cells. -/
def layout (width : Nat) (overflow : Overflow) (placing : Placing) (cs : List Char) :
    List (List Char) :=
  (Characters.splitOn '\n' cs).flatMap fun line =>
    (fill width overflow (expandTabs 0 line)).map fun l =>
      place width overflow placing (dropExcess width l)

end Maintainability.Lines
