/-
Sites of the report for a terminal: the places where data stands, between marks of the report's own, and goes through
the markup of the terminal with them. A site is read as its data if the data is plain (`Terminal.Site.reads_literal`);
it cannot be read if the data begins with a closing tag (`Terminal.Site.not_reads`).
-/
import Maintainability.Proofs.Console

namespace Maintainability

open Markup

namespace Terminal

/-! ## Sites -/

/-- A place in the report where data stands. -/
inductive Site where
  /-- A cell of the table of files. -/
  | cell (text : String)
  /-- The line of a group of duplicate methods. -/
  | group (members : String)
  /-- The line of a skipped file. -/
  | skipped (path reason : String)
  deriving DecidableEq, Repr

namespace Site

/-- The marked-up text at a site. -/
def markup : Site → String
  | .cell text => text
  | .group members => "  [magenta]-[/magenta] " ++ members
  | .skipped path reason => "  [red]![/red] " ++ path ++ " [dim](" ++ reason ++ ")[/dim]"

/-- The text at a site with the data as it is. -/
def literal : Site → String
  | .cell text => text
  | .group members => "  - " ++ members
  | .skipped path reason => "  ! " ++ path ++ " (" ++ reason ++ ")"

/-- The data at a site that stands first. -/
def first : Site → String
  | .cell text | .group text | .skipped text _ => text

/-- The data at a site. -/
def data : Site → List String
  | .cell text | .group text => [text]
  | .skipped path reason => [path, reason]

end Site

/-- The links of a file as they stand in the table. -/
def links (f : FileMetrics) : String :=
  let others := ", ".intercalate f.duplicatedWith
  if others.isEmpty then "-" else others

/-- The members of a group as they stand in its line. -/
def members (g : Entry) : String := ", ".intercalate (g.occurrences.map fun o => o.path ++ "#" ++ o.method)

/-- The groups that span files. -/
def spanning (r : Result) : List Entry := r.groups.filter fun g => decide (1 < g.files.length)

/-- The sites of a report with at most so many files. -/
def sites (top : Int) (r : Result) : List Site :=
  (r.worstFiles top).flatMap (fun f => [.cell f.path, .cell (links f)]) ++
    (spanning r).map (fun g => .group (members g)) ++ r.skipped.map fun s => .skipped s.path s.reason

theorem forall_sites {p : Site → Prop} {top : Int} {r : Result} :
    (∀ s ∈ sites top r, p s) ↔ (∀ f ∈ r.worstFiles top, p (.cell f.path) ∧ p (.cell (links f))) ∧
      (∀ g ∈ spanning r, p (.group (members g))) ∧ ∀ s ∈ r.skipped, p (.skipped s.path s.reason) := by
  simp only [sites, List.forall_mem_append, List.forall_mem_flatMap, List.forall_mem_map, List.forall_mem_cons,
    List.not_mem_nil, false_implies, implies_true, and_true, and_assoc]

/-! ## Sites and what is documented -/

namespace Site

/-- The data at a site is plain, and no code is in its text. -/
structure IsPlain (s : Site) : Prop where
  data : ∀ d ∈ s.data, Plain d.toList
  noCode : NoCode s.literal.toList

/-- The data at a site begins with plain characters and a closing tag. -/
def Closes (s : Site) : Prop :=
  ∃ u name rest, Plain u ∧ Name name ∧ s.first.toList = u ++ '[' :: '/' :: (name ++ ']' :: rest)

/-- What stands before the data at a site. -/
def before : Site → List Styled
  | .cell _ => []
  | .group _ => [.text "  ".toList, .span "magenta".toList "-".toList, .text " ".toList]
  | .skipped _ _ => [.text "  ".toList, .span "red".toList "!".toList, .text " ".toList]

/-- What stands behind the first data at a site. -/
def behind : Site → List Char
  | .cell _ | .group _ => []
  | .skipped _ reason => " [dim](".toList ++ (reason.toList ++ ")[/dim]".toList)

theorem spelled_group (members : String) :
    "  [magenta]-[/magenta] ".toList = (before (.group members)).flatMap Styled.spelled := by
  simp only [before]
  decide

theorem spelled_skipped (path reason : String) :
    "  [red]![/red] ".toList = (before (.skipped path reason)).flatMap Styled.spelled := by
  simp only [before]
  decide

theorem fits_before (s : Site) : ∀ p ∈ s.before, p.Fits := by
  cases s with
  | cell text => simp [before]
  | group members =>
    simp only [before]
    decide
  | skipped path reason =>
    simp only [before]
    decide

theorem toList_line (a b c d e : String) :
    (a ++ b ++ c ++ d ++ e).toList = a.toList ++ (b.toList ++ (c.toList ++ (d.toList ++ e.toList))) := by
  simp only [String.toList_append, List.append_assoc]

theorem toList_markup (s : Site) :
    s.markup.toList = s.before.flatMap Styled.spelled ++ (s.first.toList ++ s.behind) := by
  cases s with
  | cell text => exact (List.append_nil text.toList).symm
  | group members =>
    have hmarkup : (group members).markup.toList = "  [magenta]-[/magenta] ".toList ++ members.toList :=
      String.toList_append
    exact hmarkup.trans (congrArg₂ (· ++ ·) (spelled_group members) (List.append_nil _).symm)
  | skipped path reason =>
    have hmarkup := toList_line "  [red]![/red] " path " [dim](" reason ")[/dim]"
    exact hmarkup.trans (congrArg (· ++ _) (spelled_skipped path reason))

/-- A site as parts, if its data is plain. -/
def parts : Site → List Styled
  | .cell text => [.text text.toList]
  | .group members => before (.group members) ++ [.text members.toList]
  | .skipped path reason =>
    before (.skipped path reason) ++
      [.text path.toList, .text [' '], .span "dim".toList ('(' :: (reason.toList ++ [')']))]

/-- A path and a reason behind it, in brackets and dimmed. -/
theorem spelled_dimmed (path reason dim : List Char) :
    [.text path, .text [' '], .span dim ('(' :: (reason ++ [')']))].flatMap Styled.spelled =
      path ++ (' ' :: '[' :: (dim ++ [']', '(']) ++ (reason ++ ')' :: '[' :: '/' :: (dim ++ [']']))) := by
  simp [Styled.spelled]

theorem spelled_parts (s : Site) : s.markup.toList = s.parts.flatMap Styled.spelled := by
  rw [toList_markup]
  cases s with
  | cell text => rfl
  | group members =>
    rw [parts, List.flatMap_append]
    rfl
  | skipped path reason =>
    have hopening : " [dim](".toList = ' ' :: '[' :: ("dim".toList ++ [']', '(']) := by decide
    have hclosing : ")[/dim]".toList = ')' :: '[' :: '/' :: ("dim".toList ++ [']']) := by decide
    rw [parts, List.flatMap_append, spelled_dimmed, ← hopening, ← hclosing]
    rfl

theorem shown_group (members : String) : (before (.group members)).flatMap Styled.shown = "  - ".toList := by
  simp only [before]
  decide

theorem shown_skipped (path reason : String) :
    (before (.skipped path reason)).flatMap Styled.shown = "  ! ".toList := by
  simp only [before]
  decide

theorem shown_dimmed (path reason dim : List Char) :
    [.text path, .text [' '], .span dim ('(' :: (reason ++ [')']))].flatMap Styled.shown =
      path ++ ([' ', '('] ++ (reason ++ [')'])) := by
  simp [Styled.shown]

theorem shown_parts (s : Site) : s.literal.toList = s.parts.flatMap Styled.shown := by
  cases s with
  | cell text => exact (List.append_nil text.toList).symm
  | group members =>
    rw [parts, List.flatMap_append, shown_group]
    simp [literal, Styled.shown]
  | skipped path reason =>
    rw [parts, List.flatMap_append, shown_skipped, shown_dimmed]
    exact toList_line "  ! " path " (" reason ")"

theorem fits_parts {s : Site} (h : ∀ d ∈ s.data, Plain d.toList) : ∀ p ∈ s.parts, p.Fits := by
  cases s with
  | cell text => simpa [parts, data, Styled.Fits] using h
  | group members =>
    refine List.forall_mem_append.2 ⟨fits_before _, ?_⟩
    simpa [data, Styled.Fits] using h
  | skipped path reason =>
    obtain ⟨hpath, hreason, -⟩ : Plain path.toList ∧ Plain reason.toList ∧ True := by simpa [data] using h
    have hblank : Plain [' '] := by decide
    have hopening : Plain ['('] := by decide
    have hclosing : Plain [')'] := by decide
    have hdim : Name "dim".toList := by decide
    have hbrackets : Plain ('(' :: (reason.toList ++ [')'])) :=
      List.forall_mem_append.2 ⟨hopening, List.forall_mem_append.2 ⟨hreason, hclosing⟩⟩
    refine List.forall_mem_append.2 ⟨fits_before _, ?_⟩
    simp only [List.forall_mem_cons]
    exact ⟨hpath, hblank, ⟨hdim, hbrackets⟩, by simp⟩

variable {c : Console} {s : Site}

theorem reads_literal (hc : c.Documented) (h : s.IsPlain) : c.read s.markup.toList = .ok s.literal.toList := by
  have hcode := h.noCode
  rw [shown_parts] at hcode
  rw [spelled_parts, shown_parts]
  exact hc.styled s.parts (fits_parts h.data) hcode

theorem not_reads (hc : c.Documented) (h : s.Closes) : ¬ c.Reads s.markup := by
  obtain ⟨u, name, rest, hu, hname, hfirst⟩ := h
  have hfits : ∀ p ∈ s.before ++ [Styled.text u], p.Fits :=
    List.forall_mem_append.2 ⟨s.fits_before, by simpa [Styled.Fits] using hu⟩
  have hmarkup : s.markup.toList = (s.before ++ [Styled.text u]).flatMap Styled.spelled ++
      '[' :: '/' :: (name ++ ']' :: (rest ++ s.behind)) := by
    rw [toList_markup, hfirst, List.flatMap_append]
    simp [Styled.spelled]
  obtain ⟨e, he, -⟩ := hc.closing _ hfits name (rest ++ s.behind) hname
  rintro ⟨cs, hcs⟩
  rw [hmarkup, he] at hcs
  cases hcs

end Site

end Terminal

end Maintainability
