/-
The report as comma-separated values can be read back, whatever the paths hold.

The format is that of RFC 4180: `Document` says which texts are records, fields and quotes, and says
nothing of how they are written here. `read?` reads a text; it accepts exactly the documents
(`read?_eq_some`), so a text is a document of one list of records at most. What is written is a
document (`report_document`): quotes are put around a field whenever it could not stand without them.
-/
import Mathlib.Data.List.Forall2
import Maintainability.Proofs.Paths
import Maintainability.Report

namespace Maintainability.Csv

/-! ## The format -/

/-- The inside of a field in quotes, and the characters that it stands for. -/
inductive Inside : Text → Text → Prop
  | done : Inside [] []
  | plain {c : CodePoint} {s t : Text} (hc : c ≠ quote) (rest : Inside s t) : Inside (c :: s) (c :: t)
  | doubled {s t : Text} (rest : Inside s t) : Inside (quote :: quote :: s) (quote :: t)

/-- A field as it may be written, and the characters that it stands for. -/
inductive Spelled : Text → Text → Prop
  | bare {t : Text} (h : ∀ c ∈ t, isSpecial c = false) : Spelled t t
  | quoted {s t : Text} (h : Inside s t) : Spelled (quote :: (s ++ [quote])) t

/-- A record without its end, and its fields: one or more, with commas between them. -/
inductive Line : Text → List Text → Prop
  | last {s t : Text} (h : Spelled s t) : Line s [t]
  | more {s t rest : Text} {ts : List Text} (h : Spelled s t) (more : Line rest ts) :
      Line (s ++ comma :: rest) (t :: ts)

/-- A text and its records, each of which ends with CR LF. -/
inductive Document : Text → List (List Text) → Prop
  | empty : Document [] []
  | record {s rest : Text} {fields : List Text} {records : List (List Text)}
      (h : Line s fields) (more : Document rest records) : Document (s ++ lineEnd ++ rest) (fields :: records)

/-! ## The reader -/

/-- Reads the inside of a field up to the quote that closes it. -/
def inside? : Text → Option (Text × Text)
  | [] => none
  | [c] => if c = quote then some ([], []) else none
  | c :: d :: cs =>
    if c = quote then
      if d = quote then (inside? cs).map fun (t, rest) => (quote :: t, rest)
      else some ([], d :: cs)
    else (inside? (d :: cs)).map fun (t, rest) => (c :: t, rest)

/-- Reads a field. -/
def field? (cs : Text) : Option (Text × Text) :=
  if cs.head? = some quote then inside? cs.tail
  else some (cs.takeWhile (!isSpecial ·), cs.dropWhile (!isSpecial ·))

theorem length_inside? {cs t rest : Text} (h : inside? cs = some (t, rest)) : rest.length < cs.length := by
  fun_induction inside? cs generalizing t with
  | case1 => cases h
  | case2 =>
    cases h
    simp
  | case3 => cases h
  | case4 cs ih =>
    obtain ⟨⟨u, r⟩, hu, he⟩ := Option.map_eq_some_iff.1 h
    cases he
    have := ih hu
    simp only [List.length_cons]
    omega
  | case5 d cs =>
    cases h
    simp
  | case6 c d cs _ ih =>
    obtain ⟨⟨u, r⟩, hu, he⟩ := Option.map_eq_some_iff.1 h
    cases he
    have := ih hu
    simp only [List.length_cons] at this ⊢
    omega

theorem length_field? {cs t rest : Text} (h : field? cs = some (t, rest)) : rest.length ≤ cs.length := by
  unfold field? at h
  split at h
  · have := length_inside? h
    simp only [List.length_tail] at this
    omega
  · cases h
    exact (List.dropWhile_sublist _).length_le

/-- Reads a record up to its end. -/
def line? (cs : Text) : Option (List Text × Text) :=
  match _h : field? cs with
  | none | some (_, []) => none
  | some (t, c :: rest) =>
    if c = comma then (line? rest).map fun (ts, rest) => (t :: ts, rest)
    else if c = .cr ∧ rest.head? = some .lf then some ([t], rest.tail)
    else none
termination_by cs.length
decreasing_by
  have := length_field? _h
  simp only [List.length_cons] at this
  omega

theorem length_line? {cs rest : Text} {ts : List Text} (h : line? cs = some (ts, rest)) :
    rest.length < cs.length := by
  fun_induction line? cs generalizing ts with
  | case1 => cases h
  | case2 => cases h
  | case3 cs t more hf ih =>
    obtain ⟨⟨us, r⟩, hu, he⟩ := Option.map_eq_some_iff.1 h
    cases he
    have := ih hu
    have := length_field? hf
    simp only [List.length_cons] at this
    omega
  | case4 cs t c more hf =>
    cases h
    have := length_field? hf
    simp only [List.length_cons, List.length_tail] at this ⊢
    omega
  | case5 => cases h

/-- Reads the records of a text. -/
def read? (cs : Text) : Option (List (List Text)) :=
  if cs = [] then some []
  else
    match _h : line? cs with
    | some (fields, rest) => (read? rest).map (fields :: ·)
    | none => none
termination_by cs.length
decreasing_by exact length_line? _h

/-! ## The reader accepts the documents and nothing else -/

theorem inside?_doubled (cs : Text) :
    inside? (quote :: quote :: cs) = (inside? cs).map fun (t, rest) => (quote :: t, rest) := by
  rw [inside?, if_pos rfl, if_pos rfl]

theorem inside?_end {rest : Text} (h : rest.head? ≠ some quote) : inside? (quote :: rest) = some ([], rest) := by
  cases rest with
  | nil => rfl
  | cons c rest =>
    have hc : c ≠ quote := fun he => h (by rw [he]; rfl)
    rw [inside?, if_pos rfl, if_neg hc]

theorem inside?_plain {c : CodePoint} (h : c ≠ quote) (cs : Text) :
    inside? (c :: cs) = (inside? cs).map fun (t, rest) => (c :: t, rest) := by
  cases cs with
  | nil => simp [inside?, h]
  | cons d cs => rw [inside?, if_neg h]

theorem Inside.read {s t rest : Text} (h : Inside s t) (hrest : rest.head? ≠ some quote) :
    inside? (s ++ quote :: rest) = some (t, rest) := by
  induction h with
  | done => exact inside?_end hrest
  | plain hc _ ih => rw [List.cons_append, inside?_plain hc, ih]; rfl
  | doubled _ ih => rw [List.cons_append, List.cons_append, inside?_doubled, ih]; rfl

theorem inside_of_read {cs t rest : Text} (h : inside? cs = some (t, rest)) :
    ∃ s, cs = s ++ quote :: rest ∧ Inside s t := by
  fun_induction inside? cs generalizing t with
  | case1 => cases h
  | case2 =>
    cases h
    exact ⟨[], rfl, .done⟩
  | case3 => cases h
  | case4 cs ih =>
    obtain ⟨⟨u, r⟩, hu, he⟩ := Option.map_eq_some_iff.1 h
    cases he
    obtain ⟨s, rfl, hs⟩ := ih hu
    exact ⟨quote :: quote :: s, rfl, .doubled hs⟩
  | case5 d cs =>
    cases h
    exact ⟨[], rfl, .done⟩
  | case6 c d cs hc ih =>
    obtain ⟨⟨u, r⟩, hu, he⟩ := Option.map_eq_some_iff.1 h
    cases he
    obtain ⟨s, hs, hinside⟩ := ih hu
    exact ⟨c :: s, by rw [hs]; rfl, .plain hc hinside⟩

/-- What stands behind a field: a comma or the end of the record. -/
inductive Ends : Text → Prop
  | comma {rest : Text} : Ends (Csv.comma :: rest)
  | line {rest : Text} : Ends (.cr :: .lf :: rest)

theorem Ends.head {rest : Text} (h : Ends rest) : ∃ c, rest.head? = some c ∧ isSpecial c = true ∧ c ≠ quote := by
  cases h with
  | comma => exact ⟨_, rfl, by decide, by decide⟩
  | line => exact ⟨_, rfl, by decide, by decide⟩

theorem Spelled.read {s t rest : Text} (h : Spelled s t) (hrest : Ends rest) :
    field? (s ++ rest) = some (t, rest) := by
  obtain ⟨c, hc, hspecial, hquote⟩ := hrest.head
  obtain ⟨more, rfl⟩ := List.head?_eq_some_iff.1 hc
  cases h with
  | bare h =>
    have hhead : (s ++ c :: more).head? ≠ some quote := by
      cases s with
      | nil => simpa using hquote
      | cons d s =>
        have hd := h d (by simp)
        simp only [List.cons_append, List.head?_cons, ne_eq, Option.some.injEq]
        rintro rfl
        cases hd
    have hall : ∀ d ∈ s, (!isSpecial d) = true := fun d hd => by simp [h d hd]
    rw [field?, if_neg hhead, List.takeWhile_append_of_pos hall, List.dropWhile_append_of_pos hall]
    simp [hspecial]
  | @quoted s t h =>
    have hnext : (c :: more).head? ≠ some quote := by simpa using hquote
    have hhead : (quote :: (s ++ [quote]) ++ c :: more).head? = some quote := rfl
    rw [field?, if_pos hhead]
    simpa using h.read hnext

theorem spelled_of_read {cs t rest : Text} (h : field? cs = some (t, rest)) :
    ∃ s, cs = s ++ rest ∧ Spelled s t := by
  unfold field? at h
  split at h
  · next hhead =>
    obtain ⟨more, rfl⟩ := List.head?_eq_some_iff.1 hhead
    obtain ⟨s, hs, hinside⟩ := inside_of_read h
    refine ⟨quote :: (s ++ [quote]), ?_, .quoted hinside⟩
    simpa using hs
  · cases h
    refine ⟨_, (List.takeWhile_append_dropWhile).symm, .bare fun c hc => ?_⟩
    have := List.all_eq_true.1 (List.all_takeWhile (p := (!isSpecial ·)) (l := cs)) c hc
    simpa using this

theorem line?_comma {cs t rest : Text} (h : field? cs = some (t, comma :: rest)) :
    line? cs = (line? rest).map fun (ts, rest) => (t :: ts, rest) := by
  rw [line?]
  split
  · simp_all
  · simp_all
  · next hf =>
    cases h.symm.trans hf
    rw [if_pos rfl]

theorem line?_end {cs t rest : Text} (h : field? cs = some (t, .cr :: .lf :: rest)) :
    line? cs = some ([t], rest) := by
  have hcomma : CodePoint.cr ≠ comma := by decide
  rw [line?]
  split
  · simp_all
  · simp_all
  · next hf =>
    cases h.symm.trans hf
    rw [if_neg hcomma, if_pos ⟨rfl, rfl⟩]
    rfl

theorem Line.read {s rest : Text} {ts : List Text} (h : Line s ts) :
    line? (s ++ lineEnd ++ rest) = some (ts, rest) := by
  induction h with
  | @last s t h =>
    have hf : field? (s ++ lineEnd ++ rest) = some (t, lineEnd ++ rest) := by
      rw [List.append_assoc]
      exact h.read .line
    exact line?_end hf
  | @more s t s' ts h _ ih =>
    have hf : field? (s ++ comma :: s' ++ lineEnd ++ rest) = some (t, comma :: (s' ++ lineEnd ++ rest)) := by
      have hends : Ends (comma :: (s' ++ lineEnd ++ rest)) := .comma
      simpa using h.read hends
    rw [line?_comma hf, ih]
    rfl

theorem line_of_read {cs rest : Text} {ts : List Text} (h : line? cs = some (ts, rest)) :
    ∃ s, cs = s ++ lineEnd ++ rest ∧ Line s ts := by
  fun_induction line? cs generalizing ts with
  | case1 => cases h
  | case2 => cases h
  | case3 cs t more hf ih =>
    obtain ⟨⟨us, r⟩, hu, he⟩ := Option.map_eq_some_iff.1 h
    cases he
    obtain ⟨s, rfl, hs⟩ := spelled_of_read hf
    obtain ⟨s', rfl, hline⟩ := ih hu
    exact ⟨s ++ comma :: s', by simp, .more hs hline⟩
  | case4 cs t c more hf _ hend =>
    cases h
    obtain ⟨s, rfl, hs⟩ := spelled_of_read hf
    obtain ⟨rfl, hlf⟩ := hend
    obtain ⟨rest, rfl⟩ := List.head?_eq_some_iff.1 hlf
    exact ⟨s, by simp [lineEnd], .last hs⟩
  | case5 => cases h

theorem Document.read {cs : Text} {records : List (List Text)} (h : Document cs records) :
    read? cs = some records := by
  induction h with
  | empty => rw [read?, if_pos rfl]
  | @record s rest fields records h _ ih =>
    have hne : s ++ lineEnd ++ rest ≠ [] := by simp [lineEnd]
    rw [read?, if_neg hne]
    split
    · next fields' rest' hline =>
      rw [h.read] at hline
      cases hline
      rw [ih]
      rfl
    · next hline =>
      rw [h.read] at hline
      cases hline

theorem document_of_read {cs : Text} {records : List (List Text)} (h : read? cs = some records) :
    Document cs records := by
  fun_induction read? cs generalizing records with
  | case1 =>
    cases h
    exact .empty
  | case2 cs _ fields rest hline ih =>
    obtain ⟨more, hmore, rfl⟩ := Option.map_eq_some_iff.1 h
    obtain ⟨s, rfl, hs⟩ := line_of_read hline
    exact .record hs (ih hmore)
  | case3 => cases h

/-- **The reader accepts exactly the documents**, each as the records that it holds. -/
theorem read?_eq_some {cs : Text} {records : List (List Text)} :
    read? cs = some records ↔ Document cs records := ⟨document_of_read, Document.read⟩

/-! ## What is written is a document -/

theorem inside_double (t : Text) : Inside (double t) t := by
  induction t with
  | nil => exact .done
  | cons c t ih =>
    by_cases hc : c = quote
    · subst hc
      simpa [double] using Inside.doubled ih
    · simpa [double, hc] using Inside.plain hc ih

theorem spelled_field (t : Text) : Spelled (field t) t := by
  unfold field
  split
  · exact .quoted (inside_double t)
  · next hplain =>
    refine .bare fun c hc => ?_
    by_contra hspecial
    exact hplain (List.any_eq_true.2 ⟨c, hc, by simpa using hspecial⟩)

theorem line_fields {ts : List Text} (hne : ts ≠ []) : Line (List.intercalate [comma] (ts.map field)) ts := by
  induction ts with
  | nil => exact absurd rfl hne
  | cons t ts ih =>
    cases ts with
    | nil => simpa using Line.last (spelled_field t)
    | cons u ts =>
      have hjoin : List.intercalate [comma] ((t :: u :: ts).map field) =
          field t ++ comma :: List.intercalate [comma] ((u :: ts).map field) := by simp [List.intercalate]
      rw [hjoin]
      exact .more (spelled_field t) (ih (List.cons_ne_nil _ _))

theorem document_records {records : List (List Text)} (hne : ∀ fields ∈ records, fields ≠ []) :
    Document (records.flatMap record) records := by
  induction records with
  | nil => exact .empty
  | cons fields records ih =>
    obtain ⟨hfields, hrecords⟩ := List.forall_mem_cons.1 hne
    rw [List.flatMap_cons, record]
    exact .record (line_fields hfields) (ih hrecords)

/-! ## What a record holds -/

/-- The paths that a field of links lists. -/
def linksOf (t : Text) : List Text := if t.isEmpty then [] else Characters.splitOn semicolon t

/-- A path that can be told apart in a list of links. -/
structure Listable (path : Text) : Prop where
  nonempty : path ≠ []
  noSemicolon : semicolon ∉ path

theorem linksOf_joined {paths : List Text} (h : ∀ p ∈ paths, Listable p) :
    linksOf (List.intercalate [semicolon] paths) = paths := by
  cases paths with
  | nil => rfl
  | cons p paths =>
    have hsplit : Characters.splitOn semicolon (List.intercalate [semicolon] (p :: paths)) = p :: paths :=
      Characters.splitOn_intercalate (List.cons_ne_nil _ _) fun q hq => (h q hq).noSemicolon
    have hp : p ≠ [] := (h p (by simp)).nonempty
    -- an empty field could only be a single empty path, and there is none
    have hne : (List.intercalate [semicolon] (p :: paths)).isEmpty = false := by
      cases paths <;> simp [List.intercalate, hp]
    rw [linksOf, hne, hsplit]
    rfl

/-- The fields are those of the record of a row. -/
structure RecordOf (fields : List Text) (r : Row) : Prop where
  six : fields.length = 6
  path : fields[0]? = some r.path
  lines : fields[1]? = some (.ofString (toString r.lines))
  complexity : fields[2]? = some (.ofString (toString r.complexity))
  volume : ∃ s, r.volume.fixed 2 = .ok s ∧ fields[3]? = some (.ofString s)
  maintainability : ∃ s, r.maintainability.fixed 2 = .ok s ∧ fields[4]? = some (.ofString s)
  links : fields[5]? = some (List.intercalate [semicolon] r.duplicatedWith)
  recovered : fields[5]?.map linksOf = some r.duplicatedWith

namespace Row

variable {r : Row} {fields : List Text} {f : Fault}

/-- All numbers of a row can be written. -/
structure Writable (r : Row) : Prop where
  volume : r.volume.HasDouble
  maintainability : r.maintainability.HasDouble
  lines : Literal.Short r.lines
  complexity : Literal.Short r.complexity

/-- A row with a number that cannot be written: one without a double comes before one with too many digits. -/
inductive Fails (r : Row) : Fault → Prop
  | range (h : ¬ (r.volume.HasDouble ∧ r.maintainability.HasDouble)) : Fails r .tooLarge
  | digits (volume : r.volume.HasDouble) (maintainability : r.maintainability.HasDouble)
      (h : ¬ (Literal.Short r.lines ∧ Literal.Short r.complexity)) : Fails r .tooLong

theorem fields_ok : r.fields = .ok fields ↔ r.Writable ∧ ∃ volume maintainability,
    r.volume.fixed 2 = .ok volume ∧ r.maintainability.fixed 2 = .ok maintainability ∧
      fields = [r.path, .ofString (toString r.lines), .ofString (toString r.complexity), .ofString volume,
        .ofString maintainability, List.intercalate [semicolon] r.duplicatedWith] := by
  simp only [Row.fields, bind_eq_ok, Written.int_ok]
  constructor
  · rintro ⟨volume, hvolume, score, hscore, _, ⟨hlines, rfl⟩, _, ⟨hcomplexity, rfl⟩, h⟩
    cases h
    exact ⟨⟨Quantity.exists_fixed.1 ⟨_, hvolume⟩, Quantity.exists_fixed.1 ⟨_, hscore⟩, hlines, hcomplexity⟩,
      volume, score, hvolume, hscore, rfl⟩
  · rintro ⟨hr, volume, score, hvolume, hscore, rfl⟩
    exact ⟨volume, hvolume, score, hscore, _, ⟨hr.lines, rfl⟩, _, ⟨hr.complexity, rfl⟩, rfl⟩

theorem exists_fields : (∃ fields, r.fields = .ok fields) ↔ r.Writable := by
  constructor
  · rintro ⟨fields, h⟩
    exact (fields_ok.1 h).1
  · intro h
    obtain ⟨volume, hvolume⟩ := Quantity.exists_fixed.2 h.volume
    obtain ⟨score, hscore⟩ := Quantity.exists_fixed.2 h.maintainability
    exact ⟨_, fields_ok.2 ⟨h, volume, score, hvolume, hscore, rfl⟩⟩

theorem fields_error : r.fields = .error f ↔ r.Fails f := by
  simp only [Row.fields, bind_eq_error, Quantity.fixed_error, Written.int_error]
  constructor
  · rintro (⟨h, rfl⟩ | ⟨volume, hvolume, ⟨h, rfl⟩ | ⟨score, hscore, hints⟩⟩)
    · exact .range fun hr => h hr.1
    · exact .range fun hr => h hr.2
    · have hv := Quantity.exists_fixed.1 ⟨_, hvolume⟩
      have hm := Quantity.exists_fixed.1 ⟨_, hscore⟩
      rcases hints with ⟨h, rfl⟩ | ⟨lines, hlines, ⟨h, rfl⟩ | ⟨_, _, hpure⟩⟩
      · exact .digits hv hm fun hr => h hr.1
      · exact .digits hv hm fun hr => h hr.2
      · cases hpure
  · intro h
    cases h with
    | range h =>
      by_cases hv : r.volume.HasDouble
      · obtain ⟨volume, hvolume⟩ := Quantity.exists_fixed.2 hv
        exact .inr ⟨volume, hvolume, .inl ⟨fun hm => h ⟨hv, hm⟩, rfl⟩⟩
      · exact .inl ⟨hv, rfl⟩
    | digits hv hm h =>
      obtain ⟨volume, hvolume⟩ := Quantity.exists_fixed.2 hv
      obtain ⟨score, hscore⟩ := Quantity.exists_fixed.2 hm
      refine .inr ⟨volume, hvolume, .inr ⟨score, hscore, ?_⟩⟩
      by_cases hl : Literal.Short r.lines
      · exact .inr ⟨_, Written.int_ok.2 ⟨hl, rfl⟩, .inl ⟨fun hc => h ⟨hl, hc⟩, rfl⟩⟩
      · exact .inl ⟨hl, rfl⟩

theorem recordOf_fields (h : r.fields = .ok fields) (hlinks : ∀ p ∈ r.duplicatedWith, Listable p) :
    RecordOf fields r := by
  obtain ⟨-, volume, score, hvolume, hscore, rfl⟩ := fields_ok.1 h
  exact {
    six := rfl
    path := rfl
    lines := rfl
    complexity := rfl
    volume := ⟨volume, hvolume, rfl⟩
    maintainability := ⟨score, hscore, rfl⟩
    links := rfl
    recovered := congrArg some (linksOf_joined hlinks) }

end Row

/-! ## Rows one by one -/

theorem mapM_eq_ok {ε α β : Type} {f : α → Except ε β} {xs : List α} {ys : List β} :
    xs.mapM f = .ok ys ↔ List.Forall₂ (fun y x => f x = .ok y) ys xs := by
  induction xs generalizing ys with
  | nil => cases ys <;> simp [pure, Except.pure]
  | cons x xs ih =>
    simp only [List.mapM_cons, bind_eq_ok, ih, List.forall₂_cons_right_iff]
    constructor
    · rintro ⟨y, hy, ys, hys, h⟩
      cases h
      exact ⟨y, ys, hy, hys, rfl⟩
    · rintro ⟨y, ys, hy, hys, rfl⟩
      exact ⟨y, hy, ys, hys, rfl⟩

variable {rows : List Row} {t : Text} {f : Fault}

theorem report_ok : report rows = .ok t ↔
    ∃ records, List.Forall₂ (fun fields (r : Row) => r.fields = .ok fields) records rows ∧
      t = (header :: records).flatMap record := by
  simp only [report, bind_eq_ok, mapM_eq_ok]
  constructor
  · rintro ⟨records, h, ht⟩
    cases ht
    exact ⟨records, h, rfl⟩
  · rintro ⟨records, h, rfl⟩
    exact ⟨records, h, rfl⟩

theorem report_error : report rows = .error f ↔
    ∃ before r after, rows = before ++ r :: after ∧ (∀ x ∈ before, x.Writable) ∧ r.Fails f := by
  simp only [report, bind_eq_error, mapM_eq_error, Row.exists_fields, Row.fields_error]
  constructor
  · rintro (h | ⟨_, _, h⟩)
    · exact h
    · cases h
  · exact .inl

theorem exists_report : (∃ t, report rows = .ok t) ↔ ∀ r ∈ rows, r.Writable := by
  simp only [← Row.exists_fields, ← exists_mapM, report, bind_eq_ok]
  exact ⟨fun ⟨_, records, h, _⟩ => ⟨records, h⟩, fun ⟨records, h⟩ => ⟨_, records, h, rfl⟩⟩

/-- A text that is reported is a document. -/
theorem report_document (h : report rows = .ok t) : ∃ records, Document t (header :: records) ∧
    List.Forall₂ (fun fields (r : Row) => r.fields = .ok fields) records rows := by
  obtain ⟨records, hrecords, rfl⟩ := report_ok.1 h
  have hnonempty : ∀ fields ∈ records, fields ≠ [] := by
    refine ((List.forall₂_and_left _ _).1 (hrecords.imp fun fields r hr => ⟨?_, hr⟩)).1
    obtain ⟨-, _, _, -, -, rfl⟩ := Row.fields_ok.1 hr
    exact List.cons_ne_nil _ _
  have hheader : header ≠ [] := by simp [header]
  exact ⟨records, document_records (List.forall_mem_cons.2 ⟨hheader, hnonempty⟩), hrecords⟩

/-- **The report reads back.** Whatever code points the paths hold, lone surrogates included: the text of a report
is a document of one list of records only, and reading it gives that list, the header and the record of each
row in order. There is a text if and only if all numbers can be written; otherwise the first row with one that
cannot be ends the report with its fault. The report on a result is that of the rows of its files. -/
theorem report_reads_back (rows : List Row) (h : ∀ r ∈ rows, ∀ p ∈ r.duplicatedWith, Listable p) :
    (∀ t, report rows = .ok t → ∃ records, read? t = some (header :: records) ∧
      (∀ rs, Document t rs ↔ rs = header :: records) ∧ List.Forall₂ RecordOf records rows) ∧
    ((∃ t, report rows = .ok t) ↔ ∀ r ∈ rows, r.Writable) ∧
    (∀ f, report rows = .error f ↔
      ∃ before r after, rows = before ++ r :: after ∧ (∀ x ∈ before, x.Writable) ∧ r.Fails f) ∧
    ∀ c top (result : Result), result.files.map .of = rows → Report.text c .csv top result = report rows := by
  refine ⟨fun t ht => ?_, exists_report, fun f => report_error, fun c top result he => ?_⟩
  · obtain ⟨records, hdocument, hrecords⟩ := report_document ht
    have hread := hdocument.read
    refine ⟨records, hread, fun rs => ?_, ?_⟩
    · rw [← read?_eq_some, hread, Option.some.injEq]
      exact eq_comm
    · refine List.forall₂_iff_get.2 ⟨hrecords.length_eq, fun i hi hj => ?_⟩
      exact Row.recordOf_fields (hrecords.get hi hj) (h _ (List.get_mem _ _))
  · rw [← he]
    rfl

/-- A path with a comma, a line feed, quotes and a lone surrogate, and a link that is a carriage return. -/
theorem report_reads_back_breaks :
    let r : Row := {
      path := Text.ofString "a,\n\"b\"" ++ [0xDC80], lines := 3, complexity := 1, volume := .real 0.0,
      maintainability := .real 0.0, duplicatedWith := [[.cr], Text.ofString "é,x"] }
    (∀ x ∈ [r], ∀ p ∈ x.duplicatedWith, Listable p) ∧ ∃ t fields, report [r] = .ok t ∧
      read? t = some [header, fields] ∧ fields[0]? = some r.path ∧
      fields[5]?.map linksOf = some r.duplicatedWith := by
  intro r
  have hlistable : ∀ x ∈ [r], ∀ p ∈ x.duplicatedWith, Listable p := by
    intro x hx p hp
    rw [List.mem_singleton.1 hx] at hp
    rcases List.mem_cons.1 hp with rfl | hp
    · exact ⟨by decide, by decide⟩
    · rw [List.mem_singleton.1 hp]
      exact ⟨by decide, by decide⟩
  have hwritable : ∀ x ∈ [r], x.Writable := by
    intro x hx
    rw [List.mem_singleton.1 hx]
    exact ⟨Quantity.hasDouble_real, Quantity.hasDouble_real, by decide, by decide⟩
  obtain ⟨hreads, hexists, -⟩ := report_reads_back [r] hlistable
  obtain ⟨t, ht⟩ := hexists.2 hwritable
  obtain ⟨records, hread, -, hrecords⟩ := hreads t ht
  obtain ⟨fields, _, hfields, hnil, rfl⟩ := List.forall₂_cons_right_iff.1 hrecords
  rw [List.forall₂_nil_right_iff.1 hnil] at hread
  exact ⟨hlistable, t, fields, ht, hread, hfields.path, hfields.recovered⟩

/-- A volume that is an integer beyond the doubles, and a number of lines with too many digits. -/
theorem report_unwritten :
    let file (lines : Int) (volume : Quantity) : FileMetrics := {
      path := "A.java", lines, complexity := 1, volume, maintainability := .real 50.0, duplicatedWith := [] }
    Report.text .standard .csv 50 { files := [file 1 (.int (Nat.pow 10 400))] } = .error .tooLarge ∧
      Report.text .standard .csv 50 { files := [file (Nat.pow 10 Literal.maxDigits) (.real 1.0)] } =
        .error .tooLong := by
  intro file
  have hrange : ¬ (Quantity.int (Nat.pow 10 400)).HasDouble := by
    rw [Quantity.hasDouble_int]
    decide +kernel
  have hlong : ¬ Literal.Short (Nat.pow 10 Literal.maxDigits : Nat) := by
    rw [Literal.short_iff, Int.natAbs_natCast]
    exact Nat.lt_irrefl _
  constructor
  · exact report_error.2 ⟨[], _, [], rfl, by simp, .range fun h => hrange h.1⟩
  · exact report_error.2 ⟨[], _, [], rfl, by simp, .digits Quantity.hasDouble_real Quantity.hasDouble_real fun h => hlong h.1⟩

end Maintainability.Csv
