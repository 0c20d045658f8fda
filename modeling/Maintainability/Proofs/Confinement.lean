/-
Names inside archives, made safe. A name is read with forward slashes, as the pieces between them
(`Pieces`, which says nothing about how a list is cut); what is left without the empty pieces and the
single dots are its segments. The name has a path exactly when it does not begin with a slash, has a
segment, its first segment has no colon and no segment leads up (`memberPath_cases`); and then the path
is written as the segments with slashes between them.

Such a text is safe to use: whoever resolves it from a directory, piece by piece (`Path.visited`), sees
only places below that directory. Making it safe once more changes nothing (`memberPath_exact`).
-/
import Mathlib.Tactic.ByContra
import Maintainability.Proofs.Paths

namespace Maintainability

namespace Characters

/-- The pieces between the separators of a list: without separators, and joined they are the list. -/
structure Pieces {α : Type} (sep : α) (cs : List α) (pieces : List (List α)) : Prop where
  nonempty : pieces ≠ []
  apart : ∀ p ∈ pieces, sep ∉ p
  joined : List.intercalate [sep] pieces = cs

variable {α : Type} {sep : α} {cs : List α} {pieces : List (List α)}

theorem mem_intercalate {p : List α} {c : α} (hp : p ∈ pieces) (hc : c ∈ p) :
    c ∈ List.intercalate [sep] pieces := by
  induction pieces with
  | nil => cases hp
  | cons q rest ih =>
    cases rest with
    | nil =>
      rw [List.mem_singleton] at hp
      simpa [← hp] using hc
    | cons r rest =>
      simp only [List.intercalate_cons_cons, List.mem_append]
      rcases List.mem_cons.1 hp with rfl | hp
      · exact .inl (.inl hc)
      · exact .inr (ih hp)

variable [DecidableEq α]

theorem splitOn_ne_nil (sep : α) (cs : List α) : splitOn sep cs ≠ [] := by
  cases cs with
  | nil => simp [splitOn]
  | cons c cs =>
    unfold splitOn
    split
    · simp
    · split <;> simp

theorem pieces_splitOn (sep : α) (cs : List α) : Pieces sep cs (splitOn sep cs) := by
  induction cs with
  | nil => exact ⟨by simp [splitOn], by simp [splitOn], by simp [splitOn]⟩
  | cons c cs ih =>
    obtain ⟨p, ps, hps⟩ := List.exists_cons_of_ne_nil (splitOn_ne_nil sep cs)
    have hapart := ih.apart
    have hjoined := ih.joined
    rw [hps] at hapart hjoined
    by_cases hc : c = sep
    · subst hc
      refine ⟨splitOn_ne_nil _ _, ?_, ?_⟩
      · simpa [splitOn, hps] using hapart
      · simpa [splitOn, hps, List.intercalate] using hjoined
    · refine ⟨splitOn_ne_nil _ _, ?_, ?_⟩
      · have hne : ¬ sep = c := fun h => hc h.symm
        simpa [splitOn, hps, hc, hne] using hapart
      · cases ps <;> simpa [splitOn, hps, hc, List.intercalate] using hjoined

/-- A list is cut at its separators in one way. -/
theorem pieces_iff : Pieces sep cs pieces ↔ pieces = splitOn sep cs := by
  constructor
  · intro h
    rw [← h.joined, splitOn_intercalate h.nonempty h.apart]
  · intro h
    rw [h]
    exact pieces_splitOn sep cs

end Characters

namespace Path

/-! ## Resolving a path -/

/-- One piece of a path resolved from a directory: a name leads down, two dots lead up. -/
def step (dir : List (List Char)) (piece : List Char) : List (List Char) :=
  if piece = [] ∨ piece = ['.'] then dir
  else if piece = ['.', '.'] then dir.dropLast
  else dir ++ [piece]

/-- The places that are seen when a text is resolved from a directory, piece by piece. A slash in front
leads to the root. -/
def visited (dir : List (List Char)) (cs : List Char) : List (List (List Char)) :=
  (Characters.splitOn '/' cs).scanl step (if cs.head? = some '/' then [] else dir)

variable {segments : List (List Char)}

theorem step_name {s : List Char} (h : FileName s) (dir : List (List Char)) : step dir s = dir ++ [s] := by
  simp [step, h.nonempty, h.notSelf, h.notParent]

/-- Names lead down only. -/
theorem prefix_of_scanl (h : ∀ s ∈ segments, FileName s) :
    ∀ {dir d : List (List Char)}, d ∈ segments.scanl step dir → dir <+: d := by
  induction segments with
  | nil =>
    intro dir d hd
    simp only [List.scanl_nil, List.mem_singleton] at hd
    subst hd
    exact List.prefix_refl _
  | cons s rest ih =>
    intro dir d hd
    simp only [List.scanl_cons, List.mem_cons] at hd
    rcases hd with rfl | hd
    · exact List.prefix_refl _
    · rw [step_name (h s (by simp))] at hd
      have hbelow := ih (fun t ht => h t (by simp [ht])) hd
      exact (List.prefix_append dir [s]).trans hbelow

theorem isAbsolute_iff {cs : List Char} : (ofChars cs).isAbsolute = true ↔ cs.head? = some '/' := by
  constructor
  · intro h
    cases cs with
    | nil => cases h
    | cons c cs =>
      by_cases hc : c = '/'
      · simp [hc]
      · simp [ofChars, isAbsolute, slashesOf_of_head hc] at h
  · exact isAbsolute_of_head

end Path

namespace Intake

/-! ## Names that stay inside -/

/-- The segments of a name: read with forward slashes, its pieces that are neither empty nor a single
dot, in order. -/
def Segments (name : String) (segments : List (List Char)) : Prop :=
  ∃ pieces, Characters.Pieces '/' (forward name) pieces ∧
    segments = pieces.filter fun s => s ≠ [] ∧ s ≠ ['.']

theorem segments_iff {name : String} {segments : List (List Char)} :
    Segments name segments ↔ segments = Path.segmentsOf (forward name) := by
  have hproper : ∀ s : List Char, decide (s ≠ [] ∧ s ≠ ['.']) = Path.isProper s := by
    intro s
    rw [Bool.eq_iff_iff]
    simp [Path.isProper]
  simp only [Segments, Characters.pieces_iff, exists_eq_left, hproper, Path.segmentsOf]

/-- A name that stays inside: relative, with a first segment that is no drive, and never up. -/
structure Stays (cs : List Char) (segments : List (List Char)) : Prop where
  relative : cs.head? ≠ some '/'
  named : segments ≠ []
  noDrive : ∀ s ∈ segments.head?, ':' ∉ s
  noParent : ['.', '.'] ∉ segments

theorem not_stays_iff {cs : List Char} {segments : List (List Char)} :
    ¬ Stays cs segments ↔ cs.head? = some '/' ∨ segments = [] ∨ (∃ s ∈ segments.head?, ':' ∈ s) ∨
      ['.', '.'] ∈ segments := by
  constructor
  · intro h
    by_contra hnone
    simp only [not_or, not_exists, not_and] at hnone
    obtain ⟨hroot, hnamed, hdrive, hparent⟩ := hnone
    exact h ⟨hroot, hnamed, hdrive, hparent⟩
  · intro h hstays
    rcases h with h | h | ⟨s, hs, h⟩ | h
    · exact hstays.relative h
    · exact hstays.named h
    · exact hstays.noDrive s hs h
    · exact hstays.noParent h

theorem backslash_notMem_forward (name : String) : '\\' ∉ forward name := by
  intro h
  obtain ⟨c, -, hc⟩ := List.mem_map.1 h
  split at hc
  · cases hc
  · contradiction

/-- A name has a path exactly when it stays inside, and that has its segments. -/
theorem memberPath_cases (name : String) :
    Stays (forward name) (Path.segmentsOf (forward name)) ∧
      memberPath name = .ok ⟨0, Path.segmentsOf (forward name)⟩ ∨
    ¬ Stays (forward name) (Path.segmentsOf (forward name)) ∧
      ∃ reason, memberPath name = .error (.security reason (some name)) := by
  rw [memberPath_eq, Path.parts]
  by_cases hroot : (forward name).head? = some '/'
  · refine .inr ⟨fun h => h.relative hroot, ?_⟩
    simp [Path.isAbsolute_iff.2 hroot]
  have hrelative : (Path.ofChars (forward name)).isAbsolute = false := by
    rw [← Bool.not_eq_true, Path.isAbsolute_iff]
    exact hroot
  have hslashes : Path.slashesOf (forward name) = 0 := by
    simpa [Path.isAbsolute, Path.ofChars] using hrelative
  simp only [hrelative, Bool.false_eq_true, if_false, false_or]
  simp only [Path.ofChars, hslashes]
  cases hsegments : Path.segmentsOf (forward name) with
  | nil => exact .inr ⟨fun h => h.named rfl, _, rfl⟩
  | cons first rest =>
    by_cases hdrive : ':' ∈ first
    · refine .inr ⟨fun h => h.noDrive first rfl hdrive, ?_⟩
      simp [hdrive]
    by_cases hparent : ['.', '.'] ∈ first :: rest
    · refine .inr ⟨fun h => h.noParent hparent, ?_⟩
      simp only [List.contains_eq_mem, hdrive, hparent, decide_true, decide_false, Bool.false_eq_true, if_false,
        if_true]
      exact ⟨_, rfl⟩
    · refine .inl ⟨⟨hroot, by simp, by simpa using hdrive, hparent⟩, ?_⟩
      simp only [List.contains_eq_mem, hdrive, hparent, decide_false, Bool.false_eq_true, if_false]

/-- The segments of a name that stays inside are names of files. -/
theorem Stays.fileName {name : String} (h : Stays (forward name) (Path.segmentsOf (forward name))) :
    ∀ s ∈ Path.segmentsOf (forward name), FileName s := by
  intro s hs
  have hpieces := Characters.pieces_splitOn '/' (forward name)
  obtain ⟨hmem, hproper⟩ := List.mem_filter.1 hs
  have hback : '\\' ∉ s := by
    intro hc
    apply backslash_notMem_forward name
    rw [← hpieces.joined]
    exact Characters.mem_intercalate hmem hc
  simp only [Path.isProper, Bool.and_eq_true, Bool.not_eq_true', List.isEmpty_eq_false_iff, bne_iff_ne] at hproper
  exact ⟨hproper.1, hproper.2, fun he => h.noParent (he ▸ hs), hpieces.apart s hmem, hback⟩

/-! ## Safe texts -/

/-- A text that can be resolved from any directory without leaving it. -/
structure Confined (text : List Char) : Prop where
  nonempty : text ≠ []
  relative : text.head? ≠ some '/'
  noBackslash : '\\' ∉ text
  noParent : ∀ pieces, Characters.Pieces '/' text pieces → ['.', '.'] ∉ pieces
  noDrive : ∀ pieces, Characters.Pieces '/' text pieces → ∀ s ∈ pieces.head?, ':' ∉ s
  inside : ∀ dir, ∀ d ∈ Path.visited dir text, dir <+: d

theorem confined_joined {segments : List (List Char)} (hne : segments ≠ []) (h : ∀ s ∈ segments, FileName s)
    (hdrive : ∀ s ∈ segments.head?, ':' ∉ s) : Confined (Path.joined segments) := by
  obtain ⟨c, cs, hjoined, hc⟩ := Path.joined_head? hne h
  have hpieces : Characters.splitOn '/' (Path.joined segments) = segments :=
    Characters.splitOn_intercalate hne fun s hs => (h s hs).noSlash
  have hhead : (Path.joined segments).head? ≠ some '/' := by simpa [hjoined] using hc
  refine ⟨by simp [hjoined], hhead, ?_, ?_, ?_, ?_⟩
  · intro hmem
    rcases Path.mem_joined hmem with hslash | ⟨s, hs, hmem⟩
    · exact absurd hslash (by decide)
    · exact (h s hs).noBackslash hmem
  · intro pieces hp hmem
    rw [Characters.pieces_iff.1 hp, hpieces] at hmem
    exact (h _ hmem).notParent rfl
  · intro pieces hp
    rw [Characters.pieces_iff.1 hp, hpieces]
    exact hdrive
  · intro dir d hd
    rw [Path.visited, hpieces, if_neg hhead] at hd
    exact Path.prefix_of_scanl h hd

/-- **A member path is safe, complete and final.** Whatever the name, it has one list of segments. It is
refused as a violation of security exactly when, with forward slashes, it begins with a slash, has no
segment, has a colon in the first or leads up in any of them. Otherwise it has a path, written as exactly
these segments with slashes between them; this text can be resolved from any directory without leaving
it, and as a name it has the same path. -/
theorem memberPath_exact (name : String) :
    ∃ segments, (∀ x, Segments name x ↔ x = segments) ∧
      ((∃ p, memberPath name = .ok p) ∨ ∃ reason, memberPath name = .error (.security reason (some name))) ∧
      (∀ p, memberPath name = .ok p → p.text = String.ofList (List.intercalate ['/'] segments) ∧
        Confined p.text.toList ∧ memberPath p.text = .ok p) ∧
      ((∃ e, memberPath name = .error e) ↔ (forward name).head? = some '/' ∨ segments = [] ∨
        (∃ s ∈ segments.head?, ':' ∈ s) ∨ ['.', '.'] ∈ segments) := by
  refine ⟨Path.segmentsOf (forward name), fun x => segments_iff, ?_⟩
  rcases memberPath_cases name with ⟨hstays, hok⟩ | ⟨hstrays, reason, herror⟩
  · have hnames := hstays.fileName
    have htext : Path.text ⟨0, Path.segmentsOf (forward name)⟩ =
        String.ofList (Path.joined (Path.segmentsOf (forward name))) := by
      simp [Path.text, Path.chars, hstays.named]
    refine ⟨.inl ⟨_, hok⟩, ?_, ?_⟩
    · intro p hp
      rw [hok] at hp
      cases hp
      rw [htext, String.toList_ofList]
      exact ⟨rfl, confined_joined hstays.named hnames hstays.noDrive,
        memberPath_joined hstays.named hnames hstays.noDrive⟩
    · rw [← not_stays_iff, hok]
      simp [hstays]
  · refine ⟨.inr ⟨reason, herror⟩, ?_, ?_⟩
    · intro p hp
      rw [herror] at hp
      cases hp
    · rw [← not_stays_iff, herror]
      simp [hstrays]

end Intake

end Maintainability
