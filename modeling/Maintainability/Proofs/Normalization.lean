/-
Texts up to their layout. `MaximalRuns` says, without any function that finds them, what the maximal
runs of a list are; a list has one such sequence, the one that `runs` computes (`maximalRuns_iff`).
The layout-free form of a text is its runs of characters that are no white space, with single spaces
between them (`normalize_eq`).

That one equation is proved by induction on the runs: white space in front of a text makes no
difference (`normalize_blank`), and a run in front stays, with a space behind it exactly when more
follows (`normalize_run`). All else follows from it and from the fact that joined runs are read back
(`hasRuns_joined`): two texts have one form exactly when they have the same runs, and a form is
its own form (`normalize_exact`).
-/
import Mathlib.Data.List.Chain
import Mathlib.Data.List.DropRight
import Maintainability.Text.Runs

namespace Maintainability

/-! ## Maximal runs -/

/-- The maximal runs of elements that pass a test, in order. A run is not empty, all its elements
pass, and what follows it does not begin with one that passes; between runs, elements that fail are
left out one by one. -/
inductive MaximalRuns {α : Type} (p : α → Bool) : List α → List (List α) → Prop
  | nil : MaximalRuns p [] []
  | skip {c : α} {l : List α} {rs : List (List α)} (hc : p c = false) (h : MaximalRuns p l rs) :
      MaximalRuns p (c :: l) rs
  | run {r l : List α} {rs : List (List α)} (hne : r ≠ []) (hr : ∀ c ∈ r, p c = true)
      (hl : ∀ c ∈ l.head?, p c = false) (h : MaximalRuns p l rs) : MaximalRuns p (r ++ l) (r :: rs)

section

variable {α : Type} {p : α → Bool} {l : List α} {rs : List (List α)}

theorem head?_dropWhile_false {c : α} (h : c ∈ (l.dropWhile p).head?) : p c = false := by
  have hnot := List.head?_dropWhile_not p l
  simpa [Option.mem_def.1 h] using hnot

theorem runs_nil : runs p [] = [] := by
  unfold runs
  rfl

theorem runs_skip {c : α} (hc : p c = false) (l : List α) : runs p (c :: l) = runs p l := by
  have hdrop : (c :: l).dropWhile (!p ·) = l.dropWhile (!p ·) := by simp [hc]
  rw [runs.eq_def p (c :: l), runs.eq_def p l, hdrop]

theorem runs_run {r : List α} (hne : r ≠ []) (hr : ∀ c ∈ r, p c = true) (hl : ∀ c ∈ l.head?, p c = false) :
    runs p (r ++ l) = r :: runs p l := by
  obtain ⟨c, r, rfl⟩ := List.exists_cons_of_ne_nil hne
  have hstop : l.takeWhile p = [] ∧ l.dropWhile p = l := by
    cases l with
    | nil => simp
    | cons d l => simp [hl d rfl]
  have hrest : ∀ d ∈ r, p d = true := fun d hd => hr d (by simp [hd])
  have htake : (r ++ l).takeWhile p = r := by rw [List.takeWhile_append_of_pos hrest, hstop.1, List.append_nil]
  have hdrop : (r ++ l).dropWhile p = l := by rw [List.dropWhile_append_of_pos hrest, hstop.2]
  rw [runs]
  have hhead : (c :: r ++ l).dropWhile (!p ·) = c :: (r ++ l) := by simp [hr c (by simp)]
  split
  · next h =>
    rw [hhead] at h
    cases h
  · next d ds h =>
    rw [hhead, List.cons.injEq] at h
    obtain ⟨rfl, rfl⟩ := h
    rw [htake, hdrop]

theorem MaximalRuns.eq_runs (h : MaximalRuns p l rs) : rs = runs p l := by
  induction h with
  | nil => rw [runs_nil]
  | skip hc _ ih => rw [ih, runs_skip hc]
  | run hne hr hl _ ih => rw [ih, runs_run hne hr hl]

theorem MaximalRuns.skips {g : List α} (hg : ∀ c ∈ g, p c = false) (h : MaximalRuns p l rs) :
    MaximalRuns p (g ++ l) rs := by
  induction g with
  | nil => exact h
  | cons c g ih => exact .skip (hg c (by simp)) (ih fun d hd => hg d (by simp [hd]))

theorem maximalRuns_runs (p : α → Bool) (l : List α) : MaximalRuns p l (runs p l) := by
  fun_induction runs p l with
  | case1 l h =>
    have hg : ∀ c ∈ l, p c = false := by simpa using h
    simpa using MaximalRuns.nil.skips hg
  | case2 l c cs h ih =>
    have hc : (!p c) = false := head?_dropWhile_false (p := (!p ·)) (l := l) (by simp [h])
    have hr : ∀ d ∈ c :: cs.takeWhile p, p d = true := by
      intro d hd
      rcases List.mem_cons.1 hd with rfl | hd
      · simpa using hc
      · exact List.mem_takeWhile_imp hd
    have hrun : MaximalRuns p (c :: cs) ((c :: cs.takeWhile p) :: runs p (cs.dropWhile p)) := by
      simpa using MaximalRuns.run (by simp) hr (fun d hd => head?_dropWhile_false hd) ih
    have hsplit : l = l.takeWhile (!p ·) ++ (c :: cs) := by rw [← h, List.takeWhile_append_dropWhile]
    rw [hsplit]
    exact hrun.skips fun d hd => by simpa using List.mem_takeWhile_imp hd

/-- A list has one sequence of maximal runs. -/
theorem maximalRuns_iff : MaximalRuns p l rs ↔ rs = runs p l := by
  constructor
  · exact MaximalRuns.eq_runs
  · intro h
    rw [h]
    exact maximalRuns_runs p l

theorem MaximalRuns.unique {rs' : List (List α)} (h : MaximalRuns p l rs) (h' : MaximalRuns p l rs') : rs = rs' := by
  rw [h.eq_runs, h'.eq_runs]

theorem MaximalRuns.proper (h : MaximalRuns p l rs) : ∀ r ∈ rs, r ≠ [] ∧ ∀ c ∈ r, p c = true := by
  induction h with
  | nil => simp
  | skip _ _ ih => exact ih
  | run hne hr _ _ ih =>
    intro x hx
    rcases List.mem_cons.1 hx with rfl | hx
    · exact ⟨hne, hr⟩
    · exact ih x hx

end

namespace Text

/-! ## Joined runs -/

/-- Runs of characters that are no white space. -/
abbrev HasRuns (t : Text) (rs : List Text) : Prop := MaximalRuns (!·.isBlank) t rs

/-- Runs with single spaces between them. -/
def joined (rs : List Text) : Text := List.intercalate [CodePoint.space] rs

/-- What may stand between two single spaces. -/
def IsRun (r : Text) : Prop := r ≠ [] ∧ ∀ c ∈ r, c.isBlank = false

variable {t : Text} {rs : List Text}

theorem HasRuns.isRun (h : t.HasRuns rs) : ∀ r ∈ rs, IsRun r := by
  intro r hr
  simpa [IsRun] using h.proper r hr

theorem isBlank_space : CodePoint.space.isBlank = true := by decide

@[simp] theorem joined_nil : joined [] = [] := rfl

@[simp] theorem joined_singleton (r : Text) : joined [r] = r := by simp [joined]

theorem joined_cons {r : Text} (hne : rs ≠ []) : joined (r :: rs) = r ++ CodePoint.space :: joined rs := by
  cases rs with
  | nil => exact absurd rfl hne
  | cons q rs => simp [joined, List.intercalate]

theorem joined_eq_nil (h : ∀ r ∈ rs, IsRun r) : joined rs = [] ↔ rs = [] := by
  cases rs with
  | nil => simp
  | cons r rs =>
    have hr := (h r (by simp)).1
    by_cases hrs : rs = []
    · simp [hrs, hr]
    · simp [joined_cons hrs]

/-- Joined runs are read back. -/
theorem hasRuns_joined (h : ∀ r ∈ rs, IsRun r) : (joined rs).HasRuns rs := by
  induction rs with
  | nil => exact .nil
  | cons r rs ih =>
    have hr := h r (by simp)
    have hpass : ∀ c ∈ r, (!c.isBlank) = true := by simpa using hr.2
    have hrest := ih fun q hq => h q (by simp [hq])
    by_cases hrs : rs = []
    · subst hrs
      simpa [HasRuns] using MaximalRuns.run (p := (!·.isBlank)) hr.1 hpass (by simp) .nil
    · rw [joined_cons hrs]
      refine .run hr.1 hpass ?_ (.skip (by simp [isBlank_space]) hrest)
      simp [isBlank_space]

/-! ## Collapsing and trimming -/

theorem collapse_nil : collapse [] = [] := by
  rw [collapse.eq_def]

theorem collapse_cons (c : CodePoint) (t : Text) :
    collapse (c :: t) =
      if c.isBlank then CodePoint.space :: collapse (t.dropWhile (·.isBlank)) else c :: collapse t := by
  rw [collapse.eq_def]

theorem collapse_run {r : Text} (hr : ∀ c ∈ r, c.isBlank = false) (t : Text) :
    collapse (r ++ t) = r ++ collapse t := by
  induction r with
  | nil => rfl
  | cons c r ih =>
    have hc := hr c (by simp)
    rw [List.cons_append, collapse_cons, hc, ih fun d hd => hr d (by simp [hd])]
    simp

theorem collapse_dropWhile (t : Text) : collapse (t.dropWhile (·.isBlank)) = t.collapse.dropWhile (·.isBlank) := by
  -- white space in front is one space when collapsed, and a first character that is none stays
  have hkeep : ∀ u : Text, (∀ c ∈ u.head?, c.isBlank = false) → u.collapse.dropWhile (·.isBlank) = u.collapse := by
    intro u hu
    cases u with
    | nil => simp [collapse_nil]
    | cons c u =>
      have hc := hu c rfl
      simp [collapse_cons, hc]
  cases t with
  | nil => simp [collapse_nil]
  | cons c t =>
    by_cases hc : c.isBlank = true
    · have hrest := hkeep (t.dropWhile (·.isBlank)) fun d hd => head?_dropWhile_false hd
      simp [collapse_cons, hc, isBlank_space, hrest]
    · simp [collapse_cons, hc]

theorem collapse_blank {c : CodePoint} (hc : c.isBlank = true) (t : Text) :
    collapse (c :: t) = CodePoint.space :: t.collapse.dropWhile (·.isBlank) := by
  rw [collapse_cons, if_pos hc, collapse_dropWhile]

theorem normalize_def (t : Text) :
    t.normalize = (t.collapse.dropWhile (·.isBlank)).rdropWhile (·.isBlank) := rfl

/-- White space in front of a text makes no difference. -/
theorem normalize_blank {c : CodePoint} (hc : c.isBlank = true) (t : Text) : normalize (c :: t) = t.normalize := by
  rw [normalize_def, normalize_def, collapse_blank hc]
  simp [isBlank_space, List.dropWhile_idempotent]

theorem rdropWhile_append {α : Type} (p : α → Bool) (x y : List α) :
    (x ++ y).rdropWhile p = if y.rdropWhile p = [] then x.rdropWhile p else x ++ y.rdropWhile p := by
  simp only [List.rdropWhile, List.reverse_append, List.dropWhile_append, List.isEmpty_iff, List.reverse_eq_nil_iff]
  split <;> simp

/-- A run in front stays, and has a space behind it exactly when more follows. -/
theorem normalize_run {r : Text} (hr : IsRun r) (ht : ∀ c ∈ t.head?, c.isBlank = true) :
    normalize (r ++ t) = r ++ if t.normalize = [] then [] else CodePoint.space :: t.normalize := by
  have hfront : ∀ u : Text, (r ++ u).dropWhile (·.isBlank) = r ++ u := by
    intro u
    obtain ⟨c, r, rfl⟩ := List.exists_cons_of_ne_nil hr.1
    simp [hr.2 c]
  have hback : r.rdropWhile (·.isBlank) = r := by
    rw [List.rdropWhile_eq_self_iff]
    intro hne
    simp [hr.2 _ (List.getLast_mem hne)]
  rw [normalize_def, collapse_run hr.2, hfront, rdropWhile_append, hback]
  cases t with
  | nil => simp [collapse_nil, normalize_def]
  | cons c t =>
    -- the gap behind the run is one space, which the second trim drops with all that is blank
    have hc := ht c rfl
    rw [normalize_blank hc, normalize_def, collapse_blank hc, ← List.singleton_append, rdropWhile_append]
    by_cases hnone : ((collapse t).dropWhile (·.isBlank)).rdropWhile (·.isBlank) = []
    · simp [hnone, List.rdropWhile_singleton, isBlank_space]
    · simp [hnone]

/-- The layout-free form of a text is its runs with single spaces between them. -/
theorem normalize_eq (h : t.HasRuns rs) : t.normalize = joined rs := by
  induction h with
  | nil => simp [normalize_def, collapse_nil]
  | skip hc _ ih =>
    rw [← ih]
    exact normalize_blank (by simpa using hc) _
  | @run r l rs hne hr hl h ih =>
    have hrun : IsRun r := ⟨hne, by simpa using hr⟩
    rw [normalize_run hrun (by simpa using hl), ih]
    by_cases hrs : rs = []
    · simp [hrs]
    · rw [if_neg (mt (joined_eq_nil (HasRuns.isRun h)).1 hrs), joined_cons hrs]

/-! ## Texts without layout -/

/-- White space stands between other characters only, and always as one space. -/
structure Tight (t : Text) : Prop where
  first : ∀ c ∈ t.head?, c.isBlank = false
  last : ∀ c ∈ t.getLast?, c.isBlank = false
  space : ∀ c ∈ t, c.isBlank = true → c = CodePoint.space
  single : t.IsChain fun a b => a.isBlank = false ∨ b.isBlank = false

theorem IsRun.tight {r : Text} (hr : IsRun r) : r.Tight where
  first c hc := hr.2 c (List.mem_of_head? hc)
  last c hc := hr.2 c (List.mem_of_getLast? hc)
  space c hc hblank := by simp [hr.2 c hc] at hblank
  single := (List.pairwise_of_forall_mem_list fun a ha b _ => .inl (hr.2 a ha)).isChain

theorem Tight.behind {r : Text} (ht : t.Tight) (hr : IsRun r) (hne : t ≠ []) :
    Tight (r ++ CodePoint.space :: t) where
  first c hc := by
    rw [List.head?_append_of_ne_nil _ hr.1] at hc
    exact hr.tight.first c hc
  last c hc := by
    rw [List.getLast?_append_cons, List.getLast?_cons_of_ne_nil hne] at hc
    exact ht.last c hc
  space c hc hblank := by
    rcases List.mem_append.1 hc with hc | hc
    · exact hr.tight.space c hc hblank
    · rcases List.mem_cons.1 hc with rfl | hc
      · rfl
      · exact ht.space c hc hblank
  single := by
    rw [List.isChain_append, List.isChain_cons]
    refine ⟨hr.tight.single, ⟨fun c hc => .inr (ht.first c hc), ht.single⟩, fun c hc d _ => ?_⟩
    exact .inl (hr.tight.last c hc)

theorem joined_tight (h : ∀ r ∈ rs, IsRun r) : (joined rs).Tight := by
  induction rs with
  | nil => exact ⟨by simp, by simp, by simp, by simp⟩
  | cons r rs ih =>
    have hr := h r (by simp)
    have hrest : ∀ q ∈ rs, IsRun q := fun q hq => h q (by simp [hq])
    by_cases hrs : rs = []
    · simpa [hrs] using hr.tight
    · rw [joined_cons hrs]
      exact (ih hrest).behind hr (mt (joined_eq_nil hrest).1 hrs)

theorem HasRuns.normalize (h : t.HasRuns rs) : t.normalize.HasRuns rs := by
  rw [normalize_eq h]
  exact hasRuns_joined h.isRun

end Text

/-- **Two texts have one layout-free form exactly when they differ in their layout only**, that is, when
they have the same maximal runs of characters that are no white space. A text has one sequence of such
runs, and its form is these runs with single spaces between them; white space stands in it between other
characters only, always as one space, and it is its own form. -/
theorem normalize_exact (s t : Text) :
    (s.normalize = t.normalize ↔ ∃ rs, s.HasRuns rs ∧ t.HasRuns rs) ∧
    (∃ rs, (∀ x, s.HasRuns x ↔ x = rs) ∧ s.normalize = List.intercalate [CodePoint.space] rs) ∧
    s.normalize.Tight ∧ s.normalize.normalize = s.normalize := by
  have hs : s.HasRuns (runs (!·.isBlank) s) := maximalRuns_runs _ s
  have ht : t.HasRuns (runs (!·.isBlank) t) := maximalRuns_runs _ t
  refine ⟨⟨fun h => ?_, fun h => ?_⟩, ⟨_, fun x => maximalRuns_iff, Text.normalize_eq hs⟩, ?_, ?_⟩
  · -- both sequences of runs are read back from the one form
    have hform := ht.normalize
    rw [← h] at hform
    have hsame := hs.normalize.unique hform
    rw [hsame] at hs
    exact ⟨_, hs, ht⟩
  · obtain ⟨rs, hs, ht⟩ := h
    rw [Text.normalize_eq hs, Text.normalize_eq ht]
  · rw [Text.normalize_eq hs]
    exact Text.joined_tight hs.isRun
  · rw [Text.normalize_eq hs.normalize, Text.normalize_eq hs]

end Maintainability
