/-
The words of a text. They are its maximal runs of ASCII letters, digits and underscores
(`words_iff`), although they are found in another way: everything else is blanked out and the rest is
split at white space.

Layout does not touch them. White space is no part of a word, so no word reaches beyond a run of
characters that are no white space, and the words of a text are the words of these runs one after the
other (`words_flatMap`). The layout-free form of a text has the same runs, hence the same words, and
with them the same number of words, of distinct words, and the same volume (`words_exact`).
-/
import Mathlib.Data.Finset.Card
import Maintainability.Metric.Volume
import Maintainability.Proofs.Normalization

namespace Maintainability

/-- The runs of two lists, where no run goes on from the first into the second. -/
theorem MaximalRuns.append {α : Type} {p : α → Bool} {l l' : List α} {rs rs' : List (List α)}
    (h : MaximalRuns p l rs) (h' : MaximalRuns p l' rs') (hl' : ∀ c ∈ l'.head?, p c = false) :
    MaximalRuns p (l ++ l') (rs ++ rs') := by
  induction h with
  | nil => exact h'
  | skip hc _ ih => exact .skip hc ih
  | @run r l rs hne hr hl _ ih =>
    rw [List.append_assoc, List.cons_append]
    refine .run hne hr ?_ ih
    cases l with
    | nil => simpa using hl'
    | cons c l => simpa using hl

namespace Text

variable {t : Text} {rs ws : List Text}

/-! ## Words as runs -/

theorem not_isBlank_of_isWord {c : CodePoint} (h : c.isWord = true) : c.isBlank = false := by
  simp only [CodePoint.isWord, Bool.or_eq_true, Bool.and_eq_true, decide_eq_true_eq, beq_iff_eq] at h
  simp only [CodePoint.isBlank, Bool.or_eq_false_iff, Bool.and_eq_false_iff, decide_eq_false_iff_not,
    beq_eq_false_iff_ne]
  omega

theorem isWord_of_isBlank {c : CodePoint} (h : c.isBlank = true) : c.isWord = false := by
  by_contra hword
  simp [not_isBlank_of_isWord (by simpa using hword)] at h

/-- Blanking out what is in no word leaves the words as the runs that are no white space. -/
theorem hasRuns_blanked (h : MaximalRuns CodePoint.isWord t ws) :
    HasRuns (t.map fun c => if c.isWord then c else CodePoint.space) ws := by
  induction h with
  | nil => exact .nil
  | skip hc _ ih =>
    rw [List.map_cons, hc]
    exact .skip (by simp [isBlank_space]) ih
  | @run r l ws hne hr hl _ ih =>
    have hkeep : r.map (fun c => if c.isWord then c else CodePoint.space) = r :=
      (List.map_congr_left fun c hc => if_pos (hr c hc)).trans (List.map_id' r)
    rw [List.map_append, hkeep]
    refine .run hne (fun c hc => by simp [not_isBlank_of_isWord (hr c hc)]) ?_ ih
    cases l with
    | nil => simp
    | cons c l => simp [hl c rfl, isBlank_space]

/-- The words of a text are its maximal runs of characters of words. -/
theorem words_iff : MaximalRuns CodePoint.isWord t ws ↔ ws = t.words := by
  have hruns := maximalRuns_runs CodePoint.isWord t
  have hwords : runs CodePoint.isWord t = t.words := (hasRuns_blanked hruns).eq_runs
  rw [maximalRuns_iff, hwords]

theorem words_nil : words [] = [] := (words_iff.1 .nil).symm

theorem words_blank {c : CodePoint} (hc : c.isBlank = true) (t : Text) : words (c :: t) = t.words :=
  (words_iff.1 (.skip (isWord_of_isBlank hc) (words_iff.2 rfl))).symm

/-- No word goes on over white space. -/
theorem words_append (s : Text) (ht : ∀ c ∈ t.head?, c.isBlank = true) : words (s ++ t) = s.words ++ t.words := by
  have hs : MaximalRuns CodePoint.isWord s s.words := words_iff.2 rfl
  exact (words_iff.1 (hs.append (words_iff.2 rfl) fun c hc => isWord_of_isBlank (ht c hc))).symm

/-- The words of a text are those of its runs, one after the other. -/
theorem words_flatMap (h : t.HasRuns rs) : t.words = rs.flatMap words := by
  induction h with
  | nil => exact words_nil
  | skip hc _ ih => rw [words_blank (by simpa using hc), ih]
  | run _ _ hl _ ih => rw [words_append _ (by simpa using hl), ih, List.flatMap_cons]

theorem words_normalize (t : Text) : t.normalize.words = t.words := by
  have h : t.HasRuns (runs (!·.isBlank) t) := maximalRuns_runs _ t
  rw [words_flatMap h.normalize, words_flatMap h]

/-! ## Distinct words -/

theorem vocabulary_concat (ws : List Text) (w : Text) :
    vocabulary (ws ++ [w]) = if (vocabulary ws).contains w then vocabulary ws else vocabulary ws ++ [w] := by
  rw [vocabulary, List.foldl_append]
  rfl

theorem mem_vocabulary {w : Text} : w ∈ vocabulary ws ↔ w ∈ ws := by
  induction ws using List.reverseRecOn with
  | nil => simp [vocabulary]
  | append_singleton ws x ih =>
    rw [vocabulary_concat, List.mem_append, List.mem_singleton, ← ih]
    split
    · next hx =>
      refine ⟨.inl, fun h => ?_⟩
      rcases h with h | rfl
      · exact h
      · exact List.contains_iff_mem.1 hx
    · rw [List.mem_append, List.mem_singleton]

theorem nodup_vocabulary (ws : List Text) : (vocabulary ws).Nodup := by
  induction ws using List.reverseRecOn with
  | nil => exact List.nodup_nil
  | append_singleton ws x ih =>
    rw [vocabulary_concat]
    split
    · exact ih
    · next hx =>
      have hnew : x ∉ vocabulary ws := by simpa using hx
      simpa [List.nodup_append, ih] using fun w hw (h : w = x) => hnew (h ▸ hw)

theorem length_vocabulary (ws : List Text) : (vocabulary ws).length = ws.toFinset.card := by
  have hsame : (vocabulary ws).toFinset = ws.toFinset := by
    ext w
    simp [mem_vocabulary]
  rw [← hsame, List.toFinset_card_of_nodup (nodup_vocabulary ws)]

theorem volume_eq (t : Text) : t.volume = volumeOf t.words.length t.words.toFinset.card := by
  simp only [volume, length_vocabulary]

end Text

/-- **Texts that differ in their layout only have the same words.** The words of a text are its maximal
runs of ASCII letters, digits and underscores, and those of its layout-free form are the same. So two
texts with one such form have as many words and as many distinct ones, and the same volume, which is
a function of these two numbers. -/
theorem words_exact (s t : Text) :
    (∀ ws, MaximalRuns CodePoint.isWord t ws ↔ ws = t.words) ∧
    t.normalize.words = t.words ∧
    t.volume = Text.volumeOf t.words.length t.words.toFinset.card ∧
    (s.normalize = t.normalize → s.words.length = t.words.length ∧
      s.words.toFinset.card = t.words.toFinset.card ∧ s.volume = t.volume) := by
  refine ⟨fun ws => Text.words_iff, t.words_normalize, t.volume_eq, fun h => ?_⟩
  have hwords : s.words = t.words := by rw [← s.words_normalize, h, t.words_normalize]
  rw [s.volume_eq, t.volume_eq, hwords]
  exact ⟨rfl, rfl, rfl⟩

/-- Letters beyond ASCII part words but are no white space, and the no-break space is white space but no
ASCII blank. -/
theorem words_exact_layout :
    Text.normalize (.ofString " naïve x1\t\u00A0_y\n") = Text.normalize (.ofString "naïve\nx1 _y") ∧
    Text.words (.ofString " naïve x1\t\u00A0_y\n") = [.ofString "na", .ofString "ve", .ofString "x1", .ofString "_y"] ∧
    Text.volume (.ofString " naïve x1\t\u00A0_y\n") = Text.volume (.ofString "naïve\nx1 _y") := by
  have hform : Text.normalize (.ofString " naïve x1\t\u00A0_y\n") = Text.normalize (.ofString "naïve\nx1 _y") := by
    decide +kernel
  obtain ⟨-, -, -, hsame⟩ :=
    words_exact (.ofString " naïve x1\t\u00A0_y\n") (.ofString "naïve\nx1 _y")
  exact ⟨hform, by decide +kernel, (hsame hform).2.2⟩

end Maintainability
