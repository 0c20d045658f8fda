/-
Runs of characters. A method's body is compared up to its layout (`Text.normalize`) and measured
by its words (`Text.words`); `runs` is what both come down to: the maximal stretches of a text
whose characters all pass a test.
-/
import Maintainability.Text

namespace Maintainability

/-- The maximal stretches of elements that pass `p`, in order. -/
def runs {α : Type} (p : α → Bool) (l : List α) : List (List α) :=
  match _h : l.dropWhile (!p ·) with
  | [] => []
  | c :: cs => (c :: cs.takeWhile p) :: runs p (cs.dropWhile p)
termination_by l.length
decreasing_by
  have h₁ : (l.dropWhile (!p ·)).length ≤ l.length := (List.dropWhile_sublist _).length_le
  have h₂ : (cs.dropWhile p).length ≤ cs.length := (List.dropWhile_sublist _).length_le
  rw [_h, List.length_cons] at h₁
  omega

namespace Text

/-- Every run of white space becomes one space. -/
def collapse : Text → Text
  | [] => []
  | c :: cs =>
    if c.isBlank then CodePoint.space :: collapse (cs.dropWhile (·.isBlank))
    else c :: collapse cs
termination_by t => t.length
decreasing_by
  · have : (cs.dropWhile (·.isBlank)).length ≤ cs.length := (List.dropWhile_sublist _).length_le
    simp only [List.length_cons]
    omega
  · simp

/-- The layout-free form of a body: white space collapsed, the ends trimmed. -/
def normalize (t : Text) : Text := t.collapse.trim

/-- The words of a text: all but ASCII letters, digits and underscores is blanked out, and what
remains is split at white space. -/
def words (t : Text) : List Text :=
  runs (!·.isBlank) (t.map fun c => if c.isWord then c else CodePoint.space)

end Text

end Maintainability
