/-
The report for a terminal and the data in it. Besides the sites there are numbers and texts of the report's own, which
every terminal that keeps to what is documented can read. So it is the data that decides: a report is returned if and
only if its numbers can be written and the terminal can read the markup of each site (`Terminal.report_hinges`), and
what is printed of a site is what the terminal reads there (`Terminal.report_shows`).
-/
import Maintainability.Proofs.Sites

namespace Maintainability

open Markup

namespace Terminal

/-! ## Faults of a sequence -/

section Sequence

variable {o : Fault → Prop}

/-- The fault with which the printing of several things ends. -/
def faultIn (things : List (Unit → Printed)) : Option Fault := things.findSome? fun t => (t ()).fault?

theorem foldl_fault (a : Printed) (things : List (Unit → Printed)) :
    (things.foldl Printed.andThen a).fault? = a.fault?.or (faultIn things) := by
  induction things generalizing a with
  | nil => simp [faultIn]
  | cons t things ih =>
    rw [List.foldl_cons, ih, Printed.andThen]
    cases h : a.fault? with
    | none => cases ht : (t ()).fault? <;> simp [faultIn, ht]
    | some e => simp [h]

theorem sequence_fault (things : List (Unit → Printed)) : (sequence things).fault? = faultIn things := by
  simp [sequence, foldl_fault]

theorem printed_fault (x : Except Fault (List (List Char))) : (printed x).fault? = faultOf x := by
  cases x <;> rfl

theorem faultIn_append (a b : List (Unit → Printed)) : faultIn (a ++ b) = (faultIn a).or (faultIn b) :=
  List.findSome?_append ..

theorem faultIn_cons (t : Unit → Printed) (ts : List (Unit → Printed)) :
    faultIn (t :: ts) = (t ()).fault?.or (faultIn ts) := by
  cases h : (t ()).fault? <;> simp [faultIn, h]

theorem faultIn_map {α : Type} {xs : List α} {f : α → Unit → Printed} {p : α → Prop}
    (h : ∀ x ∈ xs, Hinges o (f x ()).fault? (p x)) : Hinges o (faultIn (xs.map f)) (∀ x ∈ xs, p x) := by
  induction xs with
  | nil => exact Hinges.never.iff (by simp)
  | cons x xs ih =>
    obtain ⟨hx, hxs⟩ := List.forall_mem_cons.1 h
    rw [List.map_cons, faultIn_cons]
    exact (hx.or (ih hxs)).iff List.forall_mem_cons.symm

theorem gap_hinges : Hinges o (gap ()).fault? True := Hinges.never

end Sequence

/-! ## What is not data -/

section Labels

variable {o : Fault → Prop} (ho : Numeric o)

theorem spelled_span {opening closing name : String} (hopening : opening.toList = '[' :: (name.toList ++ [']']))
    (hclosing : closing.toList = '[' :: '/' :: (name.toList ++ [']'])) (text : String) :
    (opening ++ text ++ closing).toList = (Styled.span name.toList text.toList).spelled := by
  simp [Styled.spelled, hopening, hclosing]

/-- A label is one part without colons. -/
def IsLabel (s : String) (p : Styled) : Prop := p.Fits ∧ ':' ∉ p.shown ∧ s.toList = p.spelled

theorem isLabel_span {opening closing name text : String} (hname : Name name.toList) (htext : Inert text.toList)
    (hopening : opening.toList = '[' :: (name.toList ++ [']']))
    (hclosing : closing.toList = '[' :: '/' :: (name.toList ++ [']'])) :
    IsLabel (opening ++ text ++ closing) (.span name.toList text.toList) :=
  ⟨⟨hname, htext.plain⟩, htext.noColon, spelled_span hopening hclosing text⟩

theorem scoreLabel_ok {q : Quantity} {s : String} (h : scoreLabel q = .ok s) : ∃ p, IsLabel s p := by
  obtain ⟨text, htext, h⟩ := bind_eq_ok.1 h
  have hscore := inert_fixed htext
  have hgreen : Name "green".toList := by decide
  have hyellow : Name "yellow".toList := by decide
  have hred : Name "red bold".toList := by decide
  split at h
  · cases h
    exact ⟨_, isLabel_span hgreen hscore rfl rfl⟩
  · split at h
    · cases h
      exact ⟨_, isLabel_span hyellow hscore rfl rfl⟩
    · cases h
      exact ⟨_, isLabel_span hred hscore rfl rfl⟩

theorem complexityLabel_ok {n : Int} {s : String} (h : complexityLabel n = .ok s) : ∃ p, IsLabel s p := by
  obtain ⟨text, htext, h⟩ := bind_eq_ok.1 h
  have hn := inert_written htext
  have hyellow : Name "yellow".toList := by decide
  have hred : Name "red bold".toList := by decide
  split at h
  · cases h
    exact ⟨_, isLabel_span hred hn rfl rfl⟩
  · split at h
    · cases h
      exact ⟨_, isLabel_span hyellow hn rfl rfl⟩
    · cases h
      exact ⟨.text _, hn.plain, hn.noColon, rfl⟩

theorem IsLabel.own {s : String} {p : Styled} (h : IsLabel s p) : Own s := own_of_part h.1 h.2.1 h.2.2

include ho in
theorem scoreLabel_hinges (q : Quantity) : Hinges o (faultOf (scoreLabel q)) q.HasDouble := by
  refine (hinges_bind (hinges_fixed ho 2 q) fun text _ => ?_).iff (and_iff_left trivial)
  split
  · exact hinges_pure _
  · split
    · exact hinges_pure _
    · exact hinges_pure _

include ho in
theorem complexityLabel_hinges (n : Int) : Hinges o (faultOf (complexityLabel n)) (Literal.Short n) := by
  refine (hinges_bind (hinges_int ho n) fun text _ => ?_).iff (and_iff_left trivial)
  split
  · exact hinges_pure _
  · split
    · exact hinges_pure _
    · exact hinges_pure _

end Labels

section Totals

variable {files lines complexity : String} {score : Styled} (r : Result)

/-- The totals, part by part. -/
def totalParts (files lines complexity : String) (score : Styled) (r : Result) : List Styled :=
  [.text "Analyzed ".toList, .span "bold".toList files.toList, .text " files  |  ".toList,
    .span "bold".toList lines.toList, .text (" lines  |  Avg complexity".toList ++ [':', ' ']),
    .span "cyan".toList complexity.toList, .text ("  |  Avg maintainability".toList ++ [':', ' ']), score] ++
  if r.skipped.isEmpty then []
  else [.text "  |  ".toList, .span "red".toList ((toString r.skipped.length).toList ++ " skipped".toList)]

theorem totalParts_fit (hfiles : Inert files.toList) (hlines : Inert lines.toList)
    (hcomplexity : Inert complexity.toList) (hscore : score.Fits) :
    ∀ p ∈ totalParts files lines complexity score r, p.Fits := by
  have hnames : ∀ name ∈ ["bold", "cyan", "red"], Name name.toList := by decide
  have htexts : ∀ text ∈ ["Analyzed ", " files  |  ", "  |  ", " skipped"], Plain text.toList := by decide
  have haverages : ∀ text ∈ [" lines  |  Avg complexity", "  |  Avg maintainability"],
      Plain (text.toList ++ [':', ' ']) := by decide
  have hskipped := List.forall_mem_append.2 ⟨(inert_nat r.skipped.length).plain, htexts " skipped" (by simp)⟩
  refine List.forall_mem_append.2 ⟨?_, ?_⟩
  · simp only [List.forall_mem_cons]
    exact ⟨htexts _ (by simp), ⟨hnames _ (by simp), hfiles.plain⟩, htexts _ (by simp),
      ⟨hnames _ (by simp), hlines.plain⟩, haverages _ (by simp), ⟨hnames _ (by simp), hcomplexity.plain⟩,
      haverages _ (by simp), hscore, by simp⟩
  · split
    · simp
    · simp only [List.forall_mem_cons]
      exact ⟨htexts _ (by simp), ⟨hnames _ (by simp), hskipped⟩, by simp⟩

/-- What is shown of the totals has two colons, with a blank behind each. -/
theorem noCode_totals (hfiles : Inert files.toList) (hlines : Inert lines.toList)
    (hcomplexity : Inert complexity.toList) (hscore : ':' ∉ score.shown) :
    NoCode ((totalParts files lines complexity score r).flatMap Styled.shown) := by
  have htexts : ∀ text ∈ ["Analyzed ", " files  |  ", " lines  |  Avg complexity", "  |  Avg maintainability",
      "  |  ", " skipped"], Inert text.toList := by decide
  have hskipped : Inert ((toString r.skipped.length).toList ++ " skipped".toList) :=
    inert_append.2 ⟨inert_nat _, htexts _ (by simp)⟩
  have htail : NoCode (score.shown ++ List.flatMap Styled.shown (if r.skipped.isEmpty then []
      else [.text "  |  ".toList, .span "red".toList ((toString r.skipped.length).toList ++ " skipped".toList)])) := by
    refine .append hscore ?_
    split
    · exact noCode_of_notMem (by simp)
    · simp only [List.flatMap_cons, List.flatMap_nil, List.append_nil, Styled.shown]
      exact .append (htexts _ (by simp)).noColon hskipped.noCode
  have haverage := NoCode.append (htexts "  |  Avg maintainability" (by simp)).noColon htail.colon
  have hlines := NoCode.append hlines.noColon
    (.append (htexts " lines  |  Avg complexity" (by simp)).noColon (NoCode.append hcomplexity.noColon haverage).colon)
  have hfiles := NoCode.append (htexts "Analyzed " (by simp)).noColon
    (.append hfiles.noColon (.append (htexts " files  |  " (by simp)).noColon hlines))
  simpa only [totalParts, List.flatMap_append, List.flatMap_cons, List.flatMap_nil, Styled.shown, List.append_nil,
    List.append_assoc, List.cons_append, List.nil_append] using hfiles

theorem totals_ok {s : String} (h : totals r = .ok s) : Own s := by
  simp only [totals, bind_eq_ok] at h
  obtain ⟨files, hfiles, lines, hlines, complexity, hcomplexity, label, hlabel, h⟩ := h
  have hfiles := inert_written hfiles
  have hlines := inert_written hlines
  have hcomplexity := inert_fixed hcomplexity
  obtain ⟨score, hscore, hcolon, hlabel⟩ := scoreLabel_ok hlabel
  refine ⟨totalParts files lines complexity score r, totalParts_fit r hfiles hlines hcomplexity hscore,
    noCode_totals r hfiles hlines hcomplexity hcolon, ?_⟩
  cases h
  unfold totalParts
  split
  · simp [Styled.spelled, hlabel]
  · simp [Styled.spelled, hlabel]

end Totals

/-! ## Numbers that can be written -/

/-- The numbers of a file in the table can be written. -/
structure WritableFile (f : FileMetrics) : Prop where
  lines : Literal.Short f.lines
  complexity : Literal.Short f.complexity
  volume : f.volume.HasDouble
  maintainability : f.maintainability.HasDouble

/-- The numbers of the totals can be written. -/
structure WritableTotals (r : Result) : Prop where
  files : Literal.Short r.totalFiles
  lines : Literal.Short r.totalLines
  complexity : r.averageComplexity.HasDouble
  maintainability : r.averageMaintainability.HasDouble

/-! ## Sections -/

section Sections

variable {c : Console} {o : Fault → Prop} {top : Int} {r : Result}
  (hc : c.Documented) (ho : Numeric o) (hsites : ∀ s ∈ sites top r, ∀ e, c.read s.markup.toList = .error e → o e)

theorem reads_hinges {markup : String} (h : c.Reads markup) : Hinges o (faultOf (c.read markup.toList)) True := by
  obtain ⟨cs, hcs⟩ := h
  rw [hcs]
  exact .never

include hc ho in
theorem summary_hinges (width : Nat) (r : Result) : Hinges o (faultIn (summary c width r)) (WritableTotals r) := by
  have htitle : IsLabel "[bold cyan]Summary[/bold cyan]" (.span "bold cyan".toList "Summary".toList) :=
    ⟨by decide, by decide, by decide⟩
  have htotals : Hinges o (faultOf (totals r)) _ :=
    hinges_bind (hinges_int ho r.totalFiles) fun _ _ => hinges_bind (hinges_int ho r.totalLines) fun _ _ =>
      hinges_bind (hinges_fixed ho 2 r.averageComplexity) fun _ _ =>
        hinges_bind (scoreLabel_hinges ho r.averageMaintainability) fun _ _ => hinges_pure _
  have hpanel := hinges_bind htotals fun markup hmarkup => hinges_bind (reads_hinges (htitle.own.reads hc)) fun title _ =>
    hinges_bind (reads_hinges ((totals_ok r hmarkup).reads hc)) fun text _ => hinges_pure (c.panel width title text)
  rw [summary, faultIn_cons, faultIn_cons, printed_fault]
  refine (hpanel.or (gap_hinges.or .never)).iff ⟨fun h => ?_, fun h => ?_⟩
  · obtain ⟨⟨⟨hfiles, hlines, hcomplexity, hscore, -⟩, -⟩, -⟩ := h
    exact ⟨hfiles, hlines, hcomplexity, hscore⟩
  · exact ⟨⟨⟨h.files, h.lines, h.complexity, h.maintainability, trivial⟩, trivial, trivial, trivial⟩, trivial, trivial⟩

/-- A row of the table holds the path and the links of a file, and texts of the report's own. -/
theorem fileRow_ok {rank : Nat} {f : FileMetrics} {row : List String} (h : fileRow rank f = .ok row) :
    f.path ∈ row ∧ links f ∈ row ∧ ∀ cell ∈ row, Own cell ∨ cell = f.path ∨ cell = links f := by
  simp only [fileRow, bind_eq_ok] at h
  obtain ⟨lines, hlines, complexity, hcomplexity, volume, hvolume, score, hscore, h⟩ := h
  obtain ⟨_, hcomplexity⟩ := complexityLabel_ok hcomplexity
  obtain ⟨_, hscore⟩ := scoreLabel_ok hscore
  cases h
  refine ⟨by simp, by simp [links], ?_⟩
  simp only [List.forall_mem_cons]
  exact ⟨.inl (own_inert (inert_nat rank)), by simp, .inl (own_inert (inert_written hlines)),
    .inl hcomplexity.own, .inl (own_inert (inert_fixed hvolume)), .inl hscore.own, .inr (.inr rfl), by simp⟩

include ho in
theorem fileRow_hinges (rank : Nat) (f : FileMetrics) : Hinges o (faultOf (fileRow rank f)) (WritableFile f) := by
  have hrow : Hinges o (faultOf (fileRow rank f)) _ :=
    hinges_bind (hinges_int ho f.lines) fun _ _ => hinges_bind (complexityLabel_hinges ho f.complexity) fun _ _ =>
      hinges_bind (hinges_fixed ho 1 f.volume) fun _ _ =>
        hinges_bind (scoreLabel_hinges ho f.maintainability) fun _ _ => hinges_pure _
  exact hrow.iff ⟨fun h => ⟨h.1, h.2.1, h.2.2.1, h.2.2.2.1⟩,
    fun h => ⟨h.lines, h.complexity, h.volume, h.maintainability, trivial⟩⟩

theorem hinges_read {markup : String} (h : ∀ e, c.read markup.toList = .error e → o e) :
    Hinges o (faultOf (c.read markup.toList)) (c.Reads markup) := hinges_exists h

include hc in
theorem plainRows_hinges {rows : List (List String)}
    (h : ∀ row ∈ rows, ∀ cell ∈ row, ∀ e, c.read cell.toList = .error e → o e) :
    Hinges o (faultOf (plainRows c rows)) (∀ row ∈ rows, ∀ cell ∈ row, c.Reads cell) := by
  have hempty : c.Reads "" := (own_inert (s := "") (by decide)).reads hc
  have hcolumn : ∀ i, Hinges o (faultOf (rows.mapM fun row => c.read (row.getD i "").toList))
      (∀ row ∈ rows, c.Reads (row.getD i "")) := fun i =>
    hinges_mapM fun row hrow => hinges_read fun e he => by
      rw [List.getD_eq_getElem?_getD] at he
      cases hi : row[i]? with
      | none =>
        obtain ⟨cs, hcs⟩ := hempty
        rw [hi, Option.getD_none, hcs] at he
        cases he
      | some cell =>
        rw [hi, Option.getD_some] at he
        exact h row hrow cell (List.mem_of_getElem? hi) e he
  have hrows : Hinges o (faultOf (rows.mapM fun row => row.mapM fun cell => c.read cell.toList))
      (∀ row ∈ rows, ∀ cell ∈ row, c.Reads cell) :=
    hinges_mapM fun row hrow => hinges_mapM fun cell hcell => hinges_read (h row hrow cell hcell)
  have hgetD : (∀ row ∈ rows, ∀ cell ∈ row, c.Reads cell) → ∀ i, ∀ row ∈ rows, c.Reads (row.getD i "") := by
    intro hall i row hrow
    rw [List.getD_eq_getElem?_getD]
    cases hi : row[i]? with
    | none => exact hempty
    | some cell => exact hall row hrow cell (List.mem_of_getElem? hi)
  exact (hinges_bind (hcolumn 1) fun _ _ => hinges_bind (hcolumn 6) fun _ _ => hrows).iff
    ⟨fun hall => hall.2.2, fun hall => ⟨hgetD hall 1, hgetD hall 6, hall⟩⟩

theorem forall_mem_zipIdx {α : Type} {p : α → Prop} {xs : List α} : (∀ x ∈ xs.zipIdx, p x.1) ↔ ∀ x ∈ xs, p x := by
  rw [← List.forall_mem_map, List.zipIdx_map_fst]

/-- The rows of the table of files. -/
def tableRows (top : Int) (r : Result) : Except Fault (List (List String)) :=
  (r.worstFiles top).zipIdx.mapM fun (f, i) => fileRow (i + 1) f

/-- The title of the table of files. -/
def tableTitle (top : Int) (r : Result) : String := toString (r.worstFiles top).length ++ " Least Maintainable Files"

theorem files_eq (width : Nat) (top : Int) (r : Result) : files c width top r =
    if r.files.isEmpty then []
    else [fun _ => printed (tableRows top r >>= fun rows => plainRows c rows >>= fun plain =>
      pure (c.table width (tableTitle top r).toList columns plain)), gap] :=
  rfl

theorem row_of_mem {rows : List (List String)} (h : tableRows top r = .ok rows) :
    (∀ f ∈ r.worstFiles top, ∃ row ∈ rows, ∃ rank, fileRow rank f = .ok row) ∧
      ∀ row ∈ rows, ∃ f ∈ r.worstFiles top, ∃ rank, fileRow rank f = .ok row := by
  obtain ⟨hleft, hright⟩ := mem_of_mapM h
  constructor
  · refine forall_mem_zipIdx.1 fun x hx => ?_
    obtain ⟨row, hrow, hx⟩ := hleft x hx
    exact ⟨row, hrow, _, hx⟩
  · intro row hrow
    obtain ⟨x, hx, hfx⟩ := hright row hrow
    have hmem : x.1 ∈ r.worstFiles top := by
      have := List.mem_map_of_mem (f := Prod.fst) hx
      rwa [List.zipIdx_map_fst] at this
    exact ⟨x.1, hmem, _, hfx⟩

include hc ho hsites in
theorem files_hinges (width : Nat) : Hinges o (faultIn (files c width top r))
    ((∀ f ∈ r.worstFiles top, WritableFile f) ∧ ∀ f ∈ r.worstFiles top, c.Reads f.path ∧ c.Reads (links f)) := by
  rw [files_eq]
  split
  · next hempty =>
    have hnone : r.worstFiles top = [] := by
      simp [Result.worstFiles, Result.ranked, List.isEmpty_iff.1 hempty]
    rw [hnone]
    exact Hinges.never.iff (by simp)
  · rw [faultIn_cons, faultIn_cons, printed_fault]
    have hrows : Hinges o (faultOf (tableRows top r)) (∀ f ∈ r.worstFiles top, WritableFile f) :=
      (hinges_mapM fun x _ => fileRow_hinges ho (x.2 + 1) x.1).iff forall_mem_zipIdx
    have hcells := (forall_sites.1 hsites).1
    have hplain : ∀ rows, tableRows top r = .ok rows → Hinges o (faultOf (plainRows c rows))
        (∀ f ∈ r.worstFiles top, c.Reads f.path ∧ c.Reads (links f)) := by
      intro rows htable
      obtain ⟨hleft, hright⟩ := row_of_mem htable
      refine (plainRows_hinges hc fun row hrow cell hcell e he => ?_).iff ⟨fun h f hf => ?_, fun h row hrow cell hcell => ?_⟩
      · obtain ⟨f, hf, rank, hfile⟩ := hright row hrow
        obtain ⟨-, -, hall⟩ := fileRow_ok hfile
        rcases hall cell hcell with hown | rfl | rfl
        · obtain ⟨cs, hcs⟩ := hown.reads hc
          rw [hcs] at he
          cases he
        · exact (hcells f hf).1 e he
        · exact (hcells f hf).2 e he
      · obtain ⟨row, hrow, rank, hfile⟩ := hleft f hf
        obtain ⟨hpath, hlinks, -⟩ := fileRow_ok hfile
        exact ⟨h row hrow _ hpath, h row hrow _ hlinks⟩
      · obtain ⟨f, hf, rank, hfile⟩ := hright row hrow
        obtain ⟨-, -, hall⟩ := fileRow_ok hfile
        rcases hall cell hcell with hown | rfl | rfl
        · exact hown.reads hc
        · exact (h f hf).1
        · exact (h f hf).2
    have htable := hinges_bind hrows fun rows htable => hinges_bind (hplain rows htable) fun plain _ =>
      hinges_pure (c.table width (tableTitle top r).toList columns plain)
    exact (htable.or (gap_hinges.or .never)).iff
      ⟨fun h => ⟨h.1.1, h.1.2.1⟩, fun h => ⟨⟨h.1, h.2, trivial⟩, trivial, trivial⟩⟩

theorem say_hinges (width : Nat) {markup : String} (h : ∀ e, c.read markup.toList = .error e → o e) :
    Hinges o (say c width markup ()).fault? (c.Reads markup) := by
  rw [say, printed_fault]
  exact (hinges_bind (hinges_read h) fun cs _ => hinges_pure _).iff (and_iff_left trivial)

/-- A title, as many lines as there is data for, and a gap: only the data decides. -/
theorem section_hinges {α : Type} {width : Nat} {title : String} (htitle : c.Reads title) {xs : List α}
    {line : α → String} (h : ∀ x ∈ xs, ∀ e, c.read (line x).toList = .error e → o e) :
    Hinges o (faultIn (say c width title :: xs.map (fun x => say c width (line x)) ++ [gap]))
      (∀ x ∈ xs, c.Reads (line x)) := by
  have htold : ∀ e, c.read title.toList = .error e → o e := by
    intro e he
    obtain ⟨cs, hcs⟩ := htitle
    rw [hcs] at he
    cases he
  rw [List.cons_append, faultIn_cons, faultIn_append, faultIn_cons]
  have hlines := faultIn_map fun x hx => say_hinges width (h x hx)
  exact ((say_hinges width htold).or (hlines.or (gap_hinges.or .never))).iff (by simp [htitle])

/-- The title of the groups. -/
def groupsTitle (r : Result) : String :=
  "[bold]Duplicated methods[/bold] (" ++ toString (spanning r).length ++ " groups):"

theorem duplicates_eq (width : Nat) (r : Result) : duplicates c width r =
    if (spanning r).isEmpty then []
    else
      say c width (groupsTitle r) :: (spanning r).map (fun g => say c width (Site.group (members g)).markup) ++ [gap] :=
  rfl

theorem skipped_eq (width : Nat) (r : Result) : skipped c width r =
    if r.skipped.isEmpty then []
    else say c width "[bold]Skipped files[/bold] (could not be parsed):" ::
      r.skipped.map (fun s => say c width (Site.skipped s.path s.reason).markup) ++ [gap] :=
  rfl

include hc hsites in
theorem duplicates_hinges (width : Nat) : Hinges o (faultIn (duplicates c width r))
    (∀ g ∈ spanning r, c.Reads (Site.group (members g)).markup) := by
  have hgroups := (forall_sites.1 hsites).2.1
  rw [duplicates_eq]
  split
  · next hempty =>
    rw [List.isEmpty_iff.1 hempty]
    exact Hinges.never.iff (by simp)
  · refine section_hinges (Own.reads hc ⟨[.span "bold".toList "Duplicated methods".toList, .text " (".toList,
      .text (toString (spanning r).length).toList, .text (" groups)".toList ++ [':'])], ?_, ?_, ?_⟩) hgroups
    · have hbold : (Styled.span "bold".toList "Duplicated methods".toList).Fits := ⟨by decide, by decide⟩
      have hopening : Plain " (".toList := by decide
      have hclosing : Plain (" groups)".toList ++ [':']) := by decide
      simp only [List.forall_mem_cons]
      exact ⟨hbold, hopening, (inert_nat _).plain, hclosing, by simp⟩
    · have hbold : ':' ∉ "Duplicated methods".toList := by decide
      have hopening : ':' ∉ " (".toList := by decide
      have hclosing : ':' ∉ " groups)".toList := by decide
      have hcode := NoCode.append hbold (.append hopening
        (.append (inert_nat (spanning r).length).noColon (.append hclosing noCode_colon)))
      simpa only [List.flatMap_cons, List.flatMap_nil, Styled.shown, List.append_nil] using hcode
    · unfold groupsTitle
      simp [Styled.spelled]

include hc hsites in
theorem skipped_hinges (width : Nat) : Hinges o (faultIn (skipped c width r))
    (∀ s ∈ r.skipped, c.Reads (Site.skipped s.path s.reason).markup) := by
  have hskipped := (forall_sites.1 hsites).2.2
  rw [skipped_eq]
  split
  · next hempty =>
    rw [List.isEmpty_iff.1 hempty]
    exact Hinges.never.iff (by simp)
  · have htitle : ':' ∉ "Skipped files".toList ++ " (could not be parsed)".toList := by decide
    refine section_hinges (Own.reads hc ⟨[.span "bold".toList "Skipped files".toList,
      .text (" (could not be parsed)".toList ++ [':'])], by decide, ?_, by decide⟩) hskipped
    have hcode := NoCode.append htitle noCode_colon
    simpa only [List.flatMap_cons, List.flatMap_nil, Styled.shown, List.append_nil, List.append_assoc] using hcode

include hc ho hsites in
theorem report_hinges (width : Nat) : Hinges o (report c width top r).fault?
    ((WritableTotals r ∧ ∀ f ∈ r.worstFiles top, WritableFile f) ∧ ∀ s ∈ sites top r, c.Reads s.markup) := by
  have htotals := summary_hinges hc ho width r
  have hfiles := files_hinges hc ho hsites width
  rw [report, sequence_fault, faultIn_append, faultIn_append, faultIn_append]
  refine (((htotals.or hfiles).or (duplicates_hinges hc hsites width)).or (skipped_hinges hc hsites width)).iff ?_
  rw [forall_sites]
  constructor
  · rintro ⟨⟨⟨ht, hw, hf⟩, hg⟩, hs⟩
    exact ⟨⟨ht, hw⟩, hf, hg, hs⟩
  · rintro ⟨⟨ht, hw⟩, hf, hg, hs⟩
    exact ⟨⟨⟨ht, hw, hf⟩, hg⟩, hs⟩

end Sections

/-! ## Sites are printed -/

section Shown

variable {c : Console} {width : Nat} {top : Int} {r : Result}

theorem foldl_text {a : Printed} {things : List (Unit → Printed)} (h : (things.foldl Printed.andThen a).fault? = none) :
    (things.foldl Printed.andThen a).text = a.text ++ things.flatMap fun t => (t ()).text := by
  induction things generalizing a with
  | nil => simp
  | cons t things ih =>
    have ha : a.fault? = none := by
      rw [foldl_fault, Option.or_eq_none_iff] at h
      exact h.1
    have hstep : (a.andThen t).text = a.text ++ (t ()).text := by simp [Printed.andThen, ha]
    rw [List.foldl_cons] at h ⊢
    rw [ih h, hstep, List.flatMap_cons, List.append_assoc]

theorem infix_of_mem {things : List (Unit → Printed)} (h : (sequence things).fault? = none) {t : Unit → Printed}
    (ht : t ∈ things) : (t ()).fault? = none ∧ (t ()).text <:+: (sequence things).text := by
  constructor
  · rw [sequence_fault, faultIn, List.findSome?_eq_none_iff] at h
    exact h t ht
  · obtain ⟨before, behind, rfl⟩ := List.append_of_mem ht
    rw [sequence, foldl_text h, List.flatMap_append, List.flatMap_cons]
    exact ⟨_, _, List.append_assoc ..⟩

/-- What is printed of a site in so many cells: the plain part of its markup, laid out in lines or in a cell of
the table. -/
def Site.ShownIn (c : Console) (width : Nat) (text : List Char) : Site → Prop
  | .cell d => ∃ cs, c.read d.toList = .ok cs ∧ ∃ title rows, (∃ row ∈ rows, cs ∈ row) ∧
      ended (c.table width title columns rows) <:+: text
  | s => ∃ cs, c.read s.markup.toList = .ok cs ∧ ended (c.lines width cs) <:+: text

theorem printed_ok {x : Except Fault (List (List Char))} (h : (printed x).fault? = none) :
    ∃ lines, x = .ok lines ∧ (printed x).text = ended lines := by
  cases x with
  | ok lines => exact ⟨lines, rfl, rfl⟩
  | error e => cases h

theorem say_shown {markup : String} (h : (say c width markup ()).fault? = none) :
    ∃ cs, c.read markup.toList = .ok cs ∧ (say c width markup ()).text = ended (c.lines width cs) := by
  obtain ⟨lines, hlines, htext⟩ := printed_ok h
  obtain ⟨cs, hcs, hpure⟩ := bind_eq_ok.1 hlines
  cases hpure
  exact ⟨cs, hcs, htext⟩

theorem plainRows_shown {rows : List (List String)} {out : List (List (List Char))} (h : plainRows c rows = .ok out)
    {row : List String} (hrow : row ∈ rows) {cell : String} (hcell : cell ∈ row) :
    ∃ cs, c.read cell.toList = .ok cs ∧ ∃ r ∈ out, cs ∈ r := by
  simp only [plainRows, bind_eq_ok] at h
  obtain ⟨_, -, _, -, hout⟩ := h
  obtain ⟨r, hr, hrow⟩ := (mem_of_mapM hout).1 row hrow
  obtain ⟨cs, hcs, hcell⟩ := (mem_of_mapM hrow).1 cell hcell
  exact ⟨cs, hcell, r, hr, hcs⟩

theorem files_shown (c : Console) (width : Nat) {f : FileMetrics} (hf : f ∈ r.worstFiles top) :
    ∃ t ∈ files c width top r, (t ()).fault? = none → ∀ d ∈ [f.path, links f],
      (Site.cell d).ShownIn c width (t ()).text := by
  have hfiles : r.files.isEmpty = false := by
    rw [← Bool.not_eq_true]
    intro hempty
    simp [Result.worstFiles, Result.ranked, List.isEmpty_iff.1 hempty] at hf
  rw [files_eq, hfiles, if_neg (by decide)]
  refine ⟨_, List.mem_cons_self, fun hfault d hd => ?_⟩
  obtain ⟨lines, hlines, htext⟩ := printed_ok hfault
  obtain ⟨rows, hrows, hlines⟩ := bind_eq_ok.1 hlines
  obtain ⟨plain, hplain, hpure⟩ := bind_eq_ok.1 hlines
  cases hpure
  obtain ⟨row, hrow, rank, hfile⟩ := (row_of_mem hrows).1 f hf
  obtain ⟨hpath, hlinks, -⟩ := fileRow_ok hfile
  have hcell : d ∈ row := by
    rcases List.mem_cons.1 hd with rfl | hd
    · exact hpath
    · rw [List.mem_singleton.1 hd]
      exact hlinks
  obtain ⟨cs, hcs, hmem⟩ := plainRows_shown hplain hrow hcell
  exact ⟨cs, hcs, (tableTitle top r).toList, plain, hmem, htext ▸ List.infix_rfl⟩

theorem Site.ShownIn.mono {s : Site} {text text' : List Char} (h : s.ShownIn c width text) (ht : text <:+: text') :
    s.ShownIn c width text' := by
  cases s with
  | cell d =>
    obtain ⟨cs, hcs, title, rows, hrows, hinfix⟩ := h
    exact ⟨cs, hcs, title, rows, hrows, hinfix.trans ht⟩
  | group members =>
    obtain ⟨cs, hcs, hinfix⟩ := h
    exact ⟨cs, hcs, hinfix.trans ht⟩
  | skipped path reason =>
    obtain ⟨cs, hcs, hinfix⟩ := h
    exact ⟨cs, hcs, hinfix.trans ht⟩

theorem report_shows (h : (report c width top r).fault? = none) :
    ∀ s ∈ sites top r, s.ShownIn c width (report c width top r).text := by
  have hinfix : ∀ t, t ∈ files c width top r ∨ t ∈ duplicates c width r ∨ t ∈ skipped c width r →
      (t ()).fault? = none ∧ (t ()).text <:+: (report c width top r).text := by
    intro t ht
    refine infix_of_mem h ?_
    simp only [List.mem_append]
    rcases ht with ht | ht | ht
    · exact .inl (.inl (.inr ht))
    · exact .inl (.inr ht)
    · exact .inr ht
  refine forall_sites.2 ⟨fun f hf => ?_, fun g hg => ?_, fun s hs => ?_⟩
  · obtain ⟨t, ht, hcells⟩ := files_shown c width hf
    obtain ⟨hfault, htext⟩ := hinfix t (.inl ht)
    exact ⟨(hcells hfault _ (by simp)).mono htext, (hcells hfault _ (by simp)).mono htext⟩
  · have hempty : (spanning r).isEmpty = false := by simpa using List.ne_nil_of_mem hg
    have hmem : say c width (Site.group (members g)).markup ∈ duplicates c width r := by
      rw [duplicates_eq, hempty, if_neg (by decide)]
      exact List.mem_cons_of_mem _ (List.mem_append_left _ (List.mem_map_of_mem hg))
    obtain ⟨hfault, htext⟩ := hinfix _ (.inr (.inl hmem))
    obtain ⟨cs, hcs, hsay⟩ := say_shown hfault
    exact ⟨cs, hcs, hsay ▸ htext⟩
  · have hempty : r.skipped.isEmpty = false := by simpa using List.ne_nil_of_mem hs
    have hmem : say c width (Site.skipped s.path s.reason).markup ∈ skipped c width r := by
      rw [skipped_eq, hempty, if_neg (by decide)]
      exact List.mem_cons_of_mem _ (List.mem_append_left _ (List.mem_map_of_mem hs))
    obtain ⟨hfault, htext⟩ := hinfix _ (.inr (.inr hmem))
    obtain ⟨cs, hcs, hsay⟩ := say_shown hfault
    exact ⟨cs, hcs, hsay ▸ htext⟩

end Shown

end Terminal

open Terminal

theorem text_terminal_ok {c : Console} {top : Int} {r : Result} {t : Text} : Report.text c .terminal top r = .ok t ↔
    (report c Report.usualWidth top r).fault? = none ∧ .ofChars (report c Report.usualWidth top r).text = t := by
  simp only [Report.text]
  cases (report c Report.usualWidth top r).fault? <;> simp

theorem text_terminal_error {c : Console} {top : Int} {r : Result} {e : Fault} :
    Report.text c .terminal top r = .error e ↔ (report c Report.usualWidth top r).fault? = some e := by
  simp only [Report.text]
  cases (report c Report.usualWidth top r).fault? <;> simp

/-- The faults that a report for a terminal may end with: that of a number that cannot be written, and that of a
site which the terminal cannot read. -/
def Terminal.Told (c : Console) (top : Int) (r : Result) (e : Fault) : Prop :=
  e = .tooLong ∨ e = .tooLarge ∨ ∃ s ∈ sites top r, c.read s.markup.toList = .error e

theorem report_told {c : Console} (hc : c.Documented) (top : Int) (r : Result) :
    Hinges (Told c top r) (report c Report.usualWidth top r).fault?
      ((WritableTotals r ∧ ∀ f ∈ r.worstFiles top, WritableFile f) ∧ ∀ s ∈ sites top r, c.Reads s.markup) :=
  report_hinges hc ⟨.inl rfl, .inr (.inl rfl)⟩ (fun s hs _ he => .inr (.inr ⟨s, hs, he⟩)) Report.usualWidth

theorem exists_text {c : Console} (hc : c.Documented) {top : Int} {r : Result} :
    (∃ t, Report.text c .terminal top r = .ok t) ↔
      (WritableTotals r ∧ ∀ f ∈ r.worstFiles top, WritableFile f) ∧ ∀ s ∈ sites top r, c.Reads s.markup := by
  simp only [text_terminal_ok, exists_and_left, exists_eq', and_true]
  exact (report_told hc top r).free

/-- **The report for a terminal takes its data for markup.** On any terminal that keeps to what is documented: there
is a report if and only if its numbers can be written and the terminal can read the markup of each site, and else
the fault is that of a number or of a site. What is printed of a site is what the terminal reads. So plain data is
shown as it is, but data that begins with a tag which closes ends the report. -/
theorem terminal_report_exact {c : Console} (hc : c.Documented) (top : Int) (r : Result) :
    ((∃ t, Report.text c .terminal top r = .ok t) ↔
      (WritableTotals r ∧ ∀ f ∈ r.worstFiles top, WritableFile f) ∧ ∀ s ∈ sites top r, c.Reads s.markup) ∧
    (∀ e, Report.text c .terminal top r = .error e → Told c top r e) ∧
    (∀ t, Report.text c .terminal top r = .ok t →
      ∃ cs, t = .ofChars cs ∧ ∀ s ∈ sites top r, s.ShownIn c Report.usualWidth cs) ∧
    (∀ s ∈ sites top r, s.IsPlain → c.read s.markup.toList = .ok s.literal.toList) ∧
    ∀ s ∈ sites top r, s.Closes → ¬ ∃ t, Report.text c .terminal top r = .ok t := by
  refine ⟨exists_text hc, fun e he => ?_, fun t ht => ?_, fun s _ => s.reads_literal hc, fun s hs hcloses h => ?_⟩
  · exact (report_told hc top r).told e (text_terminal_error.1 he)
  · obtain ⟨hfault, rfl⟩ := text_terminal_ok.1 ht
    exact ⟨_, rfl, report_shows hfault⟩
  · exact s.not_reads hc hcloses (((exists_text hc).1 h).2 s hs)

/-- On the terminal that runs: a plain path and its reason are shown, and a path with a closing tag ends the report. -/
theorem terminal_report_standard :
    let shown : Result := { skipped := [⟨"a.java", "syntax error"⟩] }
    let ended : Result := { skipped := [⟨"a[/x].java", "r"⟩] }
    Console.standard.Documented ∧ (∃ t, Report.text .standard .terminal 50 shown = .ok t) ∧
      ¬ ∃ t, Report.text .standard .terminal 50 ended = .ok t := by
  intro shown ended
  have hc := Console.standard_documented
  obtain ⟨hexists, -, -, hplain, -⟩ := terminal_report_exact hc 50 shown
  obtain ⟨-, -, -, -, hcloses⟩ := terminal_report_exact hc 50 ended
  have hreads : ∀ s ∈ sites 50 shown, Console.standard.Reads s.markup := by
    intro s hs
    have hsite : s = .skipped "a.java" "syntax error" := by
      simpa [sites, shown, spanning, Result.worstFiles, Result.ranked] using hs
    have hisPlain : s.IsPlain := by
      rw [hsite]
      exact ⟨by decide, noCode_of_notMem (by decide)⟩
    exact ⟨_, hplain s hs hisPlain⟩
  have hfiles : ∀ f ∈ shown.worstFiles 50, WritableFile f := by simp [shown, Result.worstFiles, Result.ranked]
  have htotals : WritableTotals shown := ⟨by decide, by decide, Quantity.hasDouble_real, Quantity.hasDouble_real⟩
  have hended : (Site.skipped "a[/x].java" "r").Closes :=
    ⟨"a".toList, "x".toList, ".java".toList, by decide, by decide, by decide⟩
  exact ⟨hc, hexists.2 ⟨⟨htotals, hfiles⟩, hreads⟩, hcloses _ (by simp [sites, ended]) hended⟩

/-- A skipped file ends the report on any terminal when its path holds a closing tag, and a part of a path that looks
like a tag is not shown. -/
theorem terminal_report_brackets :
    (∀ c : Console, c.Documented →
      ¬ ∃ t, Report.text c .terminal 50 { skipped := [⟨"a[/x].java", "r"⟩] } = .ok t) ∧
      .cell "src/[id]/P.java" ∈ sites 50 { files := [⟨"src/[id]/P.java", 1, 1, .int 1, .int 1, [], 1⟩] } ∧
      Console.standard.read "src/[id]/P.java".toList = .ok "src//P.java".toList := by
  refine ⟨fun c hc h => ?_, ?_, by with_unfolding_all rfl⟩
  · have hcloses : (Site.skipped "a[/x].java" "r").Closes :=
      ⟨"a".toList, "x".toList, ".java".toList, by decide, by decide, by decide⟩
    exact Site.not_reads hc hcloses (((exists_text hc).1 h).2 _ (by simp [sites]))
  · simp [sites, Result.worstFiles, Result.ranked]

end Maintainability
