/-
Lines of a text. `Lines` says what they are: a text is cut behind every CR LF, every other CR and every
other LF, and what is left behind the last cut is a line too unless it is empty. A text has one such
sequence of lines (`lines_iff`), and counting gives its length.

The count is the number of breaks, and one more if the text does not end with a break. Breaks are
counted from the left with a look at the next character, so all that can go wrong lies at the place
where two texts meet: one break is lost there exactly when a CR LF was cut in two (`breaks_append`). The
rest is assembled from that equation (`countLines_append`, `Lines.length_eq`). Writing every break as LF
changes the lines one by one (`Lines.unified`), so it leaves their number as it is.
-/
import Maintainability.Text.Lines

namespace Maintainability.Text

open CodePoint (cr lf)

variable {t a b body ending rest : Text} {ps : List Text}

/-! ## Lines -/

/-- No break stands in the text. -/
def Plain (t : Text) : Prop := ∀ c ∈ t, c ≠ cr ∧ c ≠ lf

/-- What ends a line in front of the rest of the text. -/
inductive Ending : Text → Text → Prop
  | pair (rest : Text) : Ending [cr, lf] rest
  | loneCr {rest : Text} (h : rest.head? ≠ some lf) : Ending [cr] rest
  | loneLf (rest : Text) : Ending [lf] rest

/-- A text cut behind all its line endings. -/
inductive Lines : Text → List Text → Prop
  | nil : Lines [] []
  | last {body : Text} (hne : body ≠ []) (hbody : Plain body) : Lines body [body]
  | line {body ending rest : Text} {ps : List Text} (hbody : Plain body) (hend : Ending ending rest)
      (h : Lines rest ps) : Lines (body ++ ending ++ rest) ((body ++ ending) :: ps)

/-- Every CR LF and every other CR as LF. -/
def unified : Text → Text
  | [] => []
  | c :: cs =>
    if c = cr then
      -- of a pair the LF stays
      if cs.head? = some lf then unified cs else lf :: unified cs
    else c :: unified cs

theorem cr_ne_lf : cr ≠ lf := by decide

theorem Plain.head {c : CodePoint} (h : Plain (c :: t)) : c ≠ cr ∧ c ≠ lf := h c (by simp)

theorem Plain.tail {c : CodePoint} (h : Plain (c :: t)) : Plain t := fun d hd => h d (by simp [hd])

/-! ## Breaks -/

/-- A character ends a line in front of others. -/
def EndsLine (c : CodePoint) (cs : Text) : Prop := c = lf ∨ c = cr ∧ cs.head? ≠ some lf

instance (c : CodePoint) (cs : Text) : Decidable (EndsLine c cs) := inferInstanceAs (Decidable (_ ∨ _))

@[simp] theorem endsLine_lf (t : Text) : EndsLine lf t := .inl rfl

@[simp] theorem endsLine_cr : EndsLine cr t ↔ t.head? ≠ some lf := by simp [EndsLine, cr_ne_lf]

theorem not_endsLine {c : CodePoint} (hc : c ≠ cr) (hl : c ≠ lf) : ¬ EndsLine c t := by simp [EndsLine, hc, hl]

theorem breaks_cons (c : CodePoint) (t : Text) : breaks (c :: t) = breaks t + if EndsLine c t then 1 else 0 := by
  -- a pair is counted at its CR by the definition and at its LF here
  induction t generalizing c with
  | nil => by_cases hc : c = cr <;> by_cases hl : c = lf <;> simp [breaks, EndsLine, hc, hl]
  | cons d t ih =>
    rw [breaks]
    by_cases hl : c = lf
    · subst hl
      simp [cr_ne_lf.symm]
      omega
    by_cases hc : c = cr
    · subst hc
      by_cases hd : d = lf
      · subst hd
        simp [ih]
        omega
      · simp [hd]
        omega
    · simp [hc, hl, not_endsLine]

/-- Where two texts meet, a break is lost exactly when a pair was cut in two. -/
theorem breaks_append (a b : Text) :
    breaks (a ++ b) + (if a.getLast? = some cr ∧ b.head? = some lf then 1 else 0) = breaks a + breaks b := by
  induction a with
  | nil => simp [breaks]
  | cons c a ih =>
    rw [List.cons_append, breaks_cons, breaks_cons]
    cases a with
    | nil =>
      have hnone : breaks [] = 0 := rfl
      by_cases hl : c = lf
      · subst hl
        simp [hnone, cr_ne_lf.symm]
        omega
      by_cases hc : c = cr
      · subst hc
        by_cases hb : b.head? = some lf <;> simp [hnone, hb] <;> omega
      · simp [hnone, hc, hl, not_endsLine]
    | cons d a =>
      have hends : EndsLine c (d :: a ++ b) ↔ EndsLine c (d :: a) := by simp [EndsLine]
      simp only [hends, List.getLast?_cons_cons] at ih ⊢
      omega

theorem breaks_plain (h : Plain t) : breaks t = 0 := by
  induction t with
  | nil => rfl
  | cons c t ih => rw [breaks_cons, ih h.tail, if_neg (not_endsLine h.head.1 h.head.2)]

/-! ## Counting -/

theorem endsWithBreak_iff : t.endsWithBreak = true ↔ t.getLast? = some cr ∨ t.getLast? = some lf := by
  rw [endsWithBreak]
  cases t.getLast? <;> simp

theorem countLines_nil : countLines [] = 0 := rfl

theorem countLines_of_break (h : t.getLast? = some cr ∨ t.getLast? = some lf) : t.countLines = t.breaks := by
  have hne : t ≠ [] := by
    rintro rfl
    simp at h
  rw [countLines, if_neg (by simpa using hne), if_pos (endsWithBreak_iff.2 h)]

theorem countLines_of_not_break (hne : t ≠ []) (h : ¬ (t.getLast? = some cr ∨ t.getLast? = some lf)) :
    t.countLines = t.breaks + 1 := by
  rw [countLines, if_neg (by simpa using hne), if_neg (mt endsWithBreak_iff.1 h)]

/-- Lines add up behind a break, but the two halves of a pair make one. -/
theorem countLines_append (ha : a.getLast? = some cr ∨ a.getLast? = some lf) (b : Text) :
    (a ++ b).countLines + (if a.getLast? = some cr ∧ b.head? = some lf then 1 else 0) =
      a.countLines + b.countLines := by
  by_cases hb : b = []
  · subst hb
    simp [countLines_nil]
  · have hbreaks := breaks_append a b
    have hlast : (a ++ b).getLast? = b.getLast? := by
      simp [List.getLast?_append, List.getLast?_eq_some_getLast hb]
    rw [countLines_of_break ha]
    by_cases hend : b.getLast? = some cr ∨ b.getLast? = some lf
    · rw [countLines_of_break (t := a ++ b) (by rwa [hlast]), countLines_of_break hend]
      exact hbreaks
    · rw [countLines_of_not_break (t := a ++ b) (by simp [hb]) (by rwa [hlast]), countLines_of_not_break hb hend]
      omega

theorem Plain.countLines (hne : body ≠ []) (h : Plain body) : body.countLines = 1 := by
  have hend : ¬ (body.getLast? = some cr ∨ body.getLast? = some lf) := by
    rintro (hlast | hlast)
    · exact (h _ (List.mem_of_getLast? hlast)).1 rfl
    · exact (h _ (List.mem_of_getLast? hlast)).2 rfl
  rw [countLines_of_not_break hne hend, breaks_plain h]

/-- A body with its ending is one line, and the ending is not half a pair. -/
theorem Ending.countLines (hbody : Plain body) (hend : Ending ending rest) :
    (body ++ ending ++ rest).countLines = rest.countLines + 1 := by
  have hlast : (body ++ ending).getLast? = ending.getLast? := by cases hend <;> simp
  have hone : breaks (body ++ ending) = 1 := by
    have happend := breaks_append body ending
    have hnone : body.getLast? ≠ some cr := fun h => (hbody cr (List.mem_of_getLast? h)).1 rfl
    have hending : breaks ending = 1 := by cases hend <;> rfl
    simp only [hnone, false_and, if_false, breaks_plain hbody, hending] at happend
    exact happend
  have hbreak : (body ++ ending).getLast? = some cr ∨ (body ++ ending).getLast? = some lf := by
    rw [hlast]
    cases hend <;> simp
  have hwhole : ¬ ((body ++ ending).getLast? = some cr ∧ rest.head? = some lf) := by
    rw [hlast]
    cases hend with
    | pair => simp [cr_ne_lf.symm]
    | loneCr h => simp [h]
    | loneLf => simp [cr_ne_lf.symm]
  have hcount := countLines_append hbreak rest
  rw [if_neg hwhole, countLines_of_break hbreak, hone] at hcount
  omega

theorem Lines.length_eq (h : t.Lines ps) : t.countLines = ps.length := by
  induction h with
  | nil => rfl
  | last hne hbody => exact hbody.countLines hne
  | line hbody hend _ ih => rw [hend.countLines hbody, ih, List.length_cons]

/-! ## One sequence of lines -/

/-- The lines of a text, cut from the end. -/
def lines : Text → List Text
  | [] => []
  | c :: cs =>
    if EndsLine c cs then [c] :: lines cs
    else
      match lines cs with
      | [] => [[c]]
      | p :: ps => (c :: p) :: ps

theorem lines_plain_cons {c : CodePoint} (hc : ¬ EndsLine c t) {p : Text} (h : lines t = p :: ps) :
    lines (c :: t) = (c :: p) :: ps := by
  rw [lines, if_neg hc, h]

theorem Ending.lines (h : Ending ending rest) : lines (ending ++ rest) = ending :: lines rest := by
  cases h with
  | pair =>
    have hlf : Text.lines (lf :: rest) = [lf] :: Text.lines rest := by simp [Text.lines]
    exact lines_plain_cons (by simp) hlf
  | loneCr h => simp [Text.lines, h]
  | loneLf => simp [Text.lines]

theorem lines_line (hbody : Plain body) (hend : Ending ending rest) :
    lines (body ++ ending ++ rest) = (body ++ ending) :: lines rest := by
  induction body with
  | nil => exact hend.lines
  | cons c body ih => exact lines_plain_cons (not_endsLine hbody.head.1 hbody.head.2) (ih hbody.tail)

theorem lines_last (hne : body ≠ []) (hbody : Plain body) : lines body = [body] := by
  induction body with
  | nil => exact absurd rfl hne
  | cons c body ih =>
    have hc : ¬ EndsLine c body := not_endsLine hbody.head.1 hbody.head.2
    cases body with
    | nil => rw [lines, if_neg hc]; rfl
    | cons d body => exact lines_plain_cons hc (ih (by simp) hbody.tail)

theorem Lines.eq_lines (h : t.Lines ps) : ps = t.lines := by
  induction h with
  | nil => rfl
  | last hne hbody => exact (lines_last hne hbody).symm
  | line hbody hend _ ih => rw [lines_line hbody hend, ih]

theorem Lines.cons_plain {c : CodePoint} (hc : c ≠ cr ∧ c ≠ lf) (h : t.Lines ps) : ∃ ps, Lines (c :: t) ps := by
  cases h with
  | nil => exact ⟨_, .last (by simp) (by simpa [Plain] using hc)⟩
  | last hne hbody => exact ⟨_, .last (by simp) (List.forall_mem_cons.2 ⟨hc, hbody⟩)⟩
  | @line body ending rest ps hbody hend h =>
    have hcons : Plain (c :: body) := List.forall_mem_cons.2 ⟨hc, hbody⟩
    exact ⟨_, .line hcons hend h⟩

theorem exists_lines : ∀ t : Text, ∃ ps, t.Lines ps
  | [] => ⟨[], .nil⟩
  | c :: t => by
    obtain ⟨ps, h⟩ := exists_lines t
    have hplain : Plain [] := by simp [Plain]
    by_cases hl : c = lf
    · subst hl
      exact ⟨_, .line hplain (.loneLf t) h⟩
    by_cases hc : c = cr
    · subst hc
      match t with
      | [] => exact ⟨_, .line hplain (.loneCr (by simp)) h⟩
      | d :: rest =>
        by_cases hd : d = lf
        · subst hd
          obtain ⟨qs, hrest⟩ := exists_lines rest
          exact ⟨_, .line hplain (.pair rest) hrest⟩
        · exact ⟨_, .line hplain (.loneCr (by simpa using hd)) h⟩
    · exact h.cons_plain ⟨hc, hl⟩

theorem lines_iff : t.Lines ps ↔ ps = t.lines := by
  refine ⟨Lines.eq_lines, ?_⟩
  rintro rfl
  obtain ⟨ps, h⟩ := exists_lines t
  rwa [← h.eq_lines]

/-! ## One kind of break -/

theorem unified_plain_append (hbody : Plain body) (t : Text) : unified (body ++ t) = body ++ unified t := by
  induction body with
  | nil => rfl
  | cons c body ih => rw [List.cons_append, unified, if_neg hbody.head.1, ih hbody.tail, List.cons_append]

theorem Ending.unified (h : Ending ending rest) : unified (ending ++ rest) = lf :: unified rest := by
  cases h with
  | pair => simp [Text.unified, cr_ne_lf.symm]
  | loneCr h => simp [Text.unified, h]
  | loneLf => simp [Text.unified, cr_ne_lf.symm]

theorem Ending.of_nil (h : Ending ending rest) : Ending ending [] := by
  cases h with
  | pair => exact .pair []
  | loneCr => exact .loneCr (by simp)
  | loneLf => exact .loneLf []

theorem Lines.unified (h : t.Lines ps) : t.unified.Lines (ps.map Text.unified) := by
  induction h with
  | nil => exact .nil
  | @last body hne hbody =>
    have hsame : Text.unified body = body := by simpa [Text.unified] using unified_plain_append hbody []
    rw [List.map_singleton, hsame]
    exact .last hne hbody
  | @line body ending rest ps hbody hend _ ih =>
    have hline : Text.unified (body ++ ending) = body ++ [lf] := by
      have hending := hend.of_nil.unified
      rw [List.append_nil] at hending
      rw [unified_plain_append hbody, hending]
      rfl
    rw [List.map_cons, hline, List.append_assoc, unified_plain_append hbody, hend.unified]
    simpa using Lines.line hbody (.loneLf _) ih

theorem cr_notMem_unified (t : Text) : cr ∉ t.unified := by
  induction t with
  | nil => simp [unified]
  | cons c t ih =>
    rw [unified]
    split
    · split
      · exact ih
      · simp [ih, cr_ne_lf]
    · next hc => simp [ih, Ne.symm hc]

/-- **Counting lines.** A text has one sequence of lines, cut behind every CR LF, every other CR and every
other LF, and their number is what is counted. It is the same with every break written as LF. Behind a
text that ends with a break, the lines of another one add up, less one exactly when the first ends with
the CR and the second begins with the LF of a pair. -/
theorem countLines_exact (t : Text) :
    (∃ ps, (∀ x, t.Lines x ↔ x = ps) ∧ t.countLines = ps.length) ∧
    (cr ∉ t.unified ∧ t.unified.countLines = t.countLines) ∧
    ∀ b : Text, t.getLast? = some cr ∨ t.getLast? = some lf →
      (t ++ b).countLines + (if t.getLast? = some cr ∧ b.head? = some lf then 1 else 0) =
        t.countLines + b.countLines := by
  have hlines : t.Lines t.lines := lines_iff.2 rfl
  refine ⟨⟨t.lines, fun x => lines_iff, hlines.length_eq⟩, ⟨cr_notMem_unified t, ?_⟩, fun b ht => ?_⟩
  · rw [hlines.unified.length_eq, List.length_map, hlines.length_eq]
  · exact countLines_append ht b

/-- A pair cut in two, in front of a break of each kind and a last line without one. -/
theorem countLines_exact_pair :
    countLines (.ofString "a\r\r" ++ .ofString "\n\n\rb") = 5 ∧ countLines (.ofString "a\r\r") = 2 ∧
      countLines (.ofString "\n\n\rb") = 4 := by
  obtain ⟨-, -, happend⟩ := countLines_exact (.ofString "a\r\r")
  have hcount := happend (.ofString "\n\n\rb") (.inl (by decide))
  have ha : countLines (.ofString "a\r\r") = 2 := by decide
  have hb : countLines (.ofString "\n\n\rb") = 4 := by decide
  rw [if_pos (by decide), ha, hb] at hcount
  exact ⟨by omega, ha, hb⟩

end Maintainability.Text
