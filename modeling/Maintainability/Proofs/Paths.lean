/-
Names and paths. Segments that name something and hold no slash are read back from their text
(`ofChars_joined`), so a file has the same path in a directory and in an archive that stores it under
that text (`memberPath_joined`). A name that strays from its archive is refused
(`memberPath_of_strays`).
-/
import Maintainability.Intake.Selection

namespace Maintainability

namespace Characters

variable {α : Type} [DecidableEq α] {sep : α}

theorem splitOn_of_notMem {cs : List α} (h : sep ∉ cs) : splitOn sep cs = [cs] := by
  induction cs with
  | nil => rfl
  | cons c cs ih =>
    simp only [List.mem_cons, not_or] at h
    rw [splitOn, if_neg (Ne.symm h.1), ih h.2]

theorem splitOn_append {cs : List α} (h : sep ∉ cs) (rest : List α) :
    splitOn sep (cs ++ sep :: rest) = cs :: splitOn sep rest := by
  induction cs with
  | nil => rw [List.nil_append, splitOn, if_pos rfl]
  | cons c cs ih =>
    simp only [List.mem_cons, not_or] at h
    rw [List.cons_append, splitOn, if_neg (Ne.symm h.1), ih h.2]

/-- Pieces without separators are found again between them. -/
theorem splitOn_intercalate {pieces : List (List α)} (hne : pieces ≠ []) (h : ∀ p ∈ pieces, sep ∉ p) :
    splitOn sep (List.intercalate [sep] pieces) = pieces := by
  induction pieces with
  | nil => exact absurd rfl hne
  | cons p pieces ih =>
    obtain ⟨hp, hpieces⟩ := List.forall_mem_cons.1 h
    cases pieces with
    | nil => simpa using splitOn_of_notMem hp
    | cons q pieces =>
      have hjoin : List.intercalate [sep] (p :: q :: pieces) = p ++ sep :: List.intercalate [sep] (q :: pieces) := by
        simp [List.intercalate]
      rw [hjoin, splitOn_append hp, ih (List.cons_ne_nil _ _) hpieces]

end Characters

/-! ## File names -/

/-- A name that a file or a directory may have: not empty, neither of the two that stand for a directory
itself and the one above it, and without separators of either kind. -/
structure FileName (s : List Char) : Prop where
  nonempty : s ≠ []
  notSelf : s ≠ ['.']
  notParent : s ≠ ['.', '.']
  noSlash : '/' ∉ s
  noBackslash : '\\' ∉ s

theorem FileName.isProper {s : List Char} (h : FileName s) : Path.isProper s = true := by
  simp [Path.isProper, h.nonempty, h.notSelf]

namespace Path

variable {segments : List (List Char)}

theorem joined_cons_cons (s t : List Char) (rest : List (List Char)) :
    joined (s :: t :: rest) = s ++ '/' :: joined (t :: rest) := by
  simp [joined, List.intercalate]

theorem segmentsOf_joined (h : ∀ s ∈ segments, FileName s) : segmentsOf (joined segments) = segments := by
  by_cases hne : segments = []
  · subst hne
    rfl
  · rw [segmentsOf, joined, Characters.splitOn_intercalate hne fun s hs => (h s hs).noSlash]
    exact List.filter_eq_self.2 fun s hs => (h s hs).isProper

theorem joined_head? (hne : segments ≠ []) (h : ∀ s ∈ segments, FileName s) :
    ∃ c cs, joined segments = c :: cs ∧ c ≠ '/' := by
  cases segments with
  | nil => exact absurd rfl hne
  | cons s rest =>
    have hs := h s List.mem_cons_self
    cases s with
    | nil => exact absurd rfl hs.nonempty
    | cons c s =>
      have hc : c ≠ '/' := fun heq => hs.noSlash (heq ▸ List.mem_cons_self)
      cases rest with
      | nil => exact ⟨c, s, by simp [joined], hc⟩
      | cons t rest => exact ⟨c, _, by rw [joined_cons_cons]; rfl, hc⟩

theorem slashesOf_of_head {c : Char} (hc : c ≠ '/') (cs : List Char) : slashesOf (c :: cs) = 0 := by
  simp [slashesOf, hc]

theorem isAbsolute_of_head {cs : List Char} (h : cs.head? = some '/') : (ofChars cs).isAbsolute = true := by
  cases cs with
  | nil => simp at h
  | cons c cs =>
    obtain rfl : c = '/' := by simpa using h
    simp only [isAbsolute, ofChars, slashesOf, List.takeWhile_cons, decide_true, if_true, List.length_cons,
      bne_iff_ne, ne_eq]
    split <;> omega

/-- The path of segments is read back from their text. -/
theorem ofChars_joined (hne : segments ≠ []) (h : ∀ s ∈ segments, FileName s) :
    ofChars (joined segments) = ⟨0, segments⟩ := by
  obtain ⟨c, cs, hjoined, hc⟩ := joined_head? hne h
  have hslashes : slashesOf (joined segments) = 0 := by rw [hjoined, slashesOf_of_head hc]
  rw [ofChars, hslashes, segmentsOf_joined h]

theorem mem_joined {c : Char} (h : c ∈ joined segments) : c = '/' ∨ ∃ s ∈ segments, c ∈ s := by
  induction segments with
  | nil => simp [joined] at h
  | cons s rest ih =>
    cases rest with
    | nil => exact .inr ⟨s, List.mem_cons_self, by simpa [joined] using h⟩
    | cons t rest =>
      rw [joined_cons_cons, List.mem_append, List.mem_cons] at h
      rcases h with h | rfl | h
      · exact .inr ⟨s, List.mem_cons_self, h⟩
      · exact .inl rfl
      · rcases ih h with rfl | ⟨x, hx, hc⟩
        · exact .inl rfl
        · exact .inr ⟨x, List.mem_cons_of_mem _ hx, hc⟩

theorem joined_getLast? (hne : segments ≠ []) (h : ∀ s ∈ segments, FileName s) :
    (joined segments).getLast? ≠ some '/' := by
  induction segments with
  | nil => exact absurd rfl hne
  | cons s rest ih =>
    obtain ⟨hs, hrest⟩ := List.forall_mem_cons.1 h
    cases rest with
    | nil =>
      intro hlast
      have hmem : '/' ∈ joined [s] := List.mem_of_getLast? hlast
      exact hs.noSlash (by simpa [joined] using hmem)
    | cons t rest =>
      obtain ⟨c, cs, hjoined, -⟩ := joined_head? (List.cons_ne_nil t rest) hrest
      have hlast := ih (List.cons_ne_nil t rest) hrest
      rw [joined_cons_cons]
      rw [hjoined] at hlast ⊢
      simpa [List.getLast?_append, List.getLast?_cons_cons] using hlast

end Path

/-! ## Names inside archives -/

namespace Intake

/-- The characters of a name with forward slashes. -/
def forward (name : String) : List Char := name.toList.map fun c => if c = '\\' then '/' else c

theorem memberPath_eq (name : String) :
    memberPath name =
      match (Path.ofChars (forward name)).parts with
      | [] => .error (.security "empty member name in archive" (some name))
      | first :: _ =>
        if (Path.ofChars (forward name)).isAbsolute ∨ first.contains ':' then
          .error (.security "absolute path in archive" (some name))
        else if (Path.ofChars (forward name)).segments.contains ['.', '.'] then
          .error (.security "path traversal in archive" (some name))
        else .ok (Path.ofChars (forward name)) := rfl

theorem forward_joined {segments : List (List Char)} (h : ∀ s ∈ segments, FileName s) :
    forward (String.ofList (Path.joined segments)) = Path.joined segments := by
  rw [forward, String.toList_ofList]
  refine (List.map_congr_left fun c hc => ?_).trans (List.map_id _)
  have hne : c ≠ '\\' := by
    rintro rfl
    rcases Path.mem_joined hc with hslash | ⟨s, hs, hmem⟩
    · exact absurd hslash (by decide)
    · exact (h s hs).noBackslash hmem
  rw [if_neg hne, id]

/-- A file is found in an archive by the text of its path, unless its first name looks like a drive. -/
theorem memberPath_joined {segments : List (List Char)} (hne : segments ≠ []) (h : ∀ s ∈ segments, FileName s)
    (hdrive : ∀ s ∈ segments.head?, ':' ∉ s) :
    memberPath (String.ofList (Path.joined segments)) = .ok ⟨0, segments⟩ := by
  rw [memberPath_eq, forward_joined h, Path.ofChars_joined hne h]
  cases segments with
  | nil => exact absurd rfl hne
  | cons s rest =>
    have hcolon : s.contains ':' = false := by simpa using hdrive s rfl
    have hparent : (s :: rest).contains ['.', '.'] = false := by
      rw [← Bool.not_eq_true, List.contains_iff_mem]
      exact fun hmem => (h _ hmem).notParent rfl
    simp only [Path.parts, Path.isAbsolute, bne_self_eq_false, Bool.false_eq_true, if_false, hcolon, or_self, hparent]

/-- A name that does not stay inside its archive: with forward slashes it is absolute, its first segment
looks like a drive, or one of its segments leads up. -/
inductive Strays (name : String) : Prop
  | absolute (h : (forward name).head? = some '/') : Strays name
  | drive {s : List Char} (first : (Path.segmentsOf (forward name)).head? = some s) (h : ':' ∈ s) : Strays name
  | parent (h : ['.', '.'] ∈ Path.segmentsOf (forward name)) : Strays name

/-- The reasons for which a name is refused when it strays. -/
def strayReasons : List String := ["absolute path in archive", "path traversal in archive"]

theorem Strays.parts_ne_nil {name : String} (h : Strays name) : (Path.ofChars (forward name)).parts ≠ [] := by
  rw [Path.parts]
  split
  · exact List.cons_ne_nil _ _
  · next hrelative =>
    intro hnone
    replace hnone : Path.segmentsOf (forward name) = [] := hnone
    cases h with
    | absolute h => exact hrelative (Path.isAbsolute_of_head h)
    | drive hfirst h => simp [hnone] at hfirst
    | parent h => simp [hnone] at h

theorem memberPath_of_strays {name : String} (h : Strays name) :
    ∃ reason ∈ strayReasons, memberPath name = .error (.security reason (some name)) := by
  rw [memberPath_eq]
  split
  · next hnone => exact absurd hnone h.parts_ne_nil
  next first rest hparts =>
  split
  · exact ⟨_, .head _, rfl⟩
  next hrelative =>
  obtain ⟨hroot, hcolon⟩ := not_or.1 hrelative
  split
  · exact ⟨_, .tail _ (.head _), rfl⟩
  next hinside =>
  -- the name passed all tests, so none of the three reasons holds
  rw [Path.parts, if_neg hroot] at hparts
  replace hparts : Path.segmentsOf (forward name) = first :: rest := hparts
  cases h with
  | absolute h => exact absurd (Path.isAbsolute_of_head h) hroot
  | drive hfirst h =>
    obtain rfl : first = _ := by simpa [hparts] using hfirst
    exact absurd (by simpa using h) hcolon
  | parent h => exact absurd (List.contains_iff_mem.2 h) hinside

end Intake

end Maintainability
